import Hidpin.System.Hosts

/-! Two host programs that change different pins of one device with `update_pins` at the same time. Each
    reads the whole configuration, changes its pins in it and writes all of it back. -/

namespace Hidpin.System
open Host (PinConfig PinConfigReport PinSetting Stop Gpio)

/-- The setting that is asked for a pin: the last one wins. -/
def requested (settings : List (U8 × PinSetting)) (n : Gpio) : Option PinSetting :=
  settings.reverse.lookup n.toU8

/-- A configuration with the settings in it. -/
def updated (c : PinConfig) (settings : List (U8 × PinSetting)) : PinConfig := fun n =>
  (requested settings n).getD (c n)

theorem requested_cons (gpio : U8) (setting : PinSetting) (settings : List (U8 × PinSetting)) (n : Gpio) :
    requested ((gpio, setting) :: settings) n =
      (requested settings n).or (if n.toU8 = gpio then some setting else none) := by
  rw [requested, List.reverse_cons, List.lookup_append, ← requested]
  refine congrArg _ ?_
  by_cases h : n.toU8 = gpio
  · rw [if_pos h, List.lookup_cons, h, beq_self_eq_true]
  · rw [if_neg h, List.lookup_cons, beq_eq_false_iff_ne.mpr h]
    rfl

theorem withPins_eq {config : PinConfig} : ∀ {settings : List (U8 × PinSetting)} {c : PinConfig},
    c.withPins settings = .ok config → config = updated c settings
  | [], c, h => by
    cases h
    rfl
  | (gpio, setting) :: settings, c, h => by
    rw [PinConfig.withPins, PinConfig.withPin] at h
    by_cases hlt : gpio.toNat < Host.gpioCount
    · rw [dif_pos hlt] at h
      rw [withPins_eq h]
      funext n
      have hsame : n = ⟨gpio.toNat, hlt⟩ ↔ n.toU8 = gpio := by
        rw [← BitVec.toNat_inj, Host.toNat_toU8, Fin.ext_iff]
      rw [updated, updated, requested_cons, Function.update_apply]
      simp only [hsame]
      rcases requested settings n with _ | x
      · split <;> rfl
      · rfl
    · rw [dif_neg hlt] at h
      cases h

/-! ### The order of the accesses -/

/-- Whether the program read the configuration, with its first access, after a Set of the other one. -/
def ReadAfter (accesses : List (Bool × Access)) (i : Bool) : Prop :=
  (!i) ∈ (setsOf (accesses.takeWhile fun x => x.1 ≠ i)).map Prod.fst

instance (accesses : List (Bool × Access)) (i : Bool) : Decidable (ReadAfter accesses i) :=
  inferInstanceAs (Decidable (_ ∈ _))

variable {accesses new : List (Bool × Access)} {i : Bool}

/-- What comes after the first access does not matter. -/
theorem readAfter_append (h : ∃ x ∈ accesses, x.1 = i) :
    ReadAfter (accesses ++ new) i ↔ ReadAfter accesses i := by
  obtain ⟨x, hx, hxi⟩ := h
  have hne : accesses.takeWhile (fun x => decide (x.1 ≠ i)) ≠ accesses := fun heq => by
    have := List.takeWhile_eq_self_iff.mp heq x hx
    simp [hxi] at this
  have hlen : (accesses.takeWhile (fun x => decide (x.1 ≠ i))).length ≠ accesses.length := fun hlen =>
    hne ((List.takeWhile_prefix _).eq_of_length hlen)
  rw [ReadAfter, List.takeWhile_append, if_neg hlen, ReadAfter]

/-- The first access. -/
theorem readAfter_first (h : ∀ x ∈ accesses, x.1 ≠ i) (a : Access) :
    ReadAfter (accesses ++ [(i, a)]) i ↔ (!i) ∈ (setsOf accesses).map Prod.fst := by
  rw [ReadAfter, List.takeWhile_append_of_pos (by simpa using h)]
  simp

theorem readAfter_sets (h : ReadAfter accesses i) : (!i) ∈ (setsOf accesses).map Prod.fst := by
  obtain ⟨x, hx, hxi⟩ := List.mem_map.mp h
  obtain ⟨y, hy, hyx⟩ := List.mem_filterMap.mp hx
  exact List.mem_map.mpr ⟨x, List.mem_filterMap.mpr ⟨y, (List.takeWhile_prefix _).subset hy, hyx⟩, hxi⟩

/-! ### The race -/

section Race
variable {c₀ : PinConfig} {settings : Bool → List (U8 × PinSetting)} {info : Firmware.DeviceInfo}

/-- The programs that made a Set, in order. -/
def writers (accesses : List (Bool × Access)) : List Bool := (setsOf accesses).map Prod.fst

/-- The configuration that a program writes, when `c₀` was there first. -/
def wanted (c₀ : PinConfig) (settings : Bool → List (U8 × PinSetting)) (accesses : List (Bool × Access))
    (i : Bool) : PinConfig :=
  updated (if ReadAfter accesses i then updated c₀ (settings !i) else c₀) (settings i)

/-- What the Sets so far have made of the configuration. -/
inductive Order (c₀ : PinConfig) (settings : Bool → List (U8 × PinSetting))
    (accesses : List (Bool × Access)) : PinConfig → Prop where
  | none (h : writers accesses = []) : Order c₀ settings accesses c₀
  | one {i : Bool} (h : writers accesses = [i]) : Order c₀ settings accesses (updated c₀ (settings i))
  | two {i : Bool} (h : writers accesses = [i, !i]) :
      Order c₀ settings accesses (wanted c₀ settings accesses (!i))

/-- Where a program is in its call: before its read nothing was accessed, between the read and the Set it
    holds the configuration it writes, and only after its Set it can succeed. -/
structure Racer (c₀ : PinConfig) (settings : Bool → List (U8 × PinSetting)) (accesses : List (Bool × Access))
    (i : Bool) (p : Program) : Prop where
  waiting : ∀ st, p.stage = some (.update st) → st = settings i ∧ ∀ x ∈ accesses, x.1 ≠ i
  holds : ∀ config, (p.stage = some (.start config) ∨ ∃ available, p.stage = some (.send config available)) →
    (∃ x ∈ accesses, x.1 = i) ∧ i ∉ writers accesses ∧ config = wanted c₀ settings accesses i
  written : (∃ config requestId, p.stage = some (.readBack config requestId)) ∨
    (∃ read, p.result = some (.ok read)) → i ∈ writers accesses

/-- Two updates at the same time: what their accesses have done, and where each of them is. -/
structure Race (c₀ : PinConfig) (settings : Bool → List (U8 × PinSetting)) (s : Hosts Bool) : Prop where
  order : ∃ c, c.toFirmware = s.bus.features.2.config ∧ Order c₀ settings s.bus.accesses c
  racer : ∀ i, Racer c₀ settings s.bus.accesses i (s.programs i)

theorem mem_of_writers (h : i ∈ writers accesses) : ∃ x ∈ accesses, x.1 = i := by
  obtain ⟨x, hx, rfl⟩ := List.mem_map.mp h
  obtain ⟨y, hy, hyx⟩ := List.mem_filterMap.mp hx
  refine ⟨y, hy, ?_⟩
  split at hyx
  · cases hyx
  · rw [← Option.some.inj hyx]

theorem writers_append : writers (accesses ++ new) = writers accesses ++ writers new := by
  simp [writers, setsOf]

theorem wanted_append (h : ∃ x ∈ accesses, x.1 = i) :
    wanted c₀ settings (accesses ++ new) i = wanted c₀ settings accesses i := by
  rw [wanted, wanted]
  simp only [readAfter_append h]

/-- Accesses that are no Sets change nothing of it. -/
theorem Order.append {c : PinConfig} (h : Order c₀ settings accesses c) (hnew : writers new = []) :
    Order c₀ settings (accesses ++ new) c := by
  have hwriters : writers (accesses ++ new) = writers accesses := by
    rw [writers_append, hnew, List.append_nil]
  cases h with
  | none h => exact .none (hwriters.trans h)
  | one h => exact .one (hwriters.trans h)
  | @two j h =>
    have hsame : wanted c₀ settings (accesses ++ new) (!j) = wanted c₀ settings accesses (!j) :=
      wanted_append (mem_of_writers (by rw [h]; simp))
    rw [← hsame]
    exact .two (hwriters.trans h)

/-- The accesses of the other program change nothing for a program. -/
theorem Racer.append {p : Program} (h : Racer c₀ settings accesses i p) (hnew : ∀ x ∈ new, x.1 ≠ i) :
    Racer c₀ settings (accesses ++ new) i p where
  waiting st hst := by
    obtain ⟨hsettings, hbefore⟩ := h.waiting st hst
    refine ⟨hsettings, fun x hx => ?_⟩
    rcases List.mem_append.mp hx with hx | hx
    · exact hbefore x hx
    · exact hnew x hx
  holds config hconfig := by
    obtain ⟨hread, hwriters, rfl⟩ := h.holds config hconfig
    refine ⟨?_, ?_, (wanted_append hread).symm⟩
    · obtain ⟨x, hx, hxi⟩ := hread
      exact ⟨x, List.mem_append_left _ hx, hxi⟩
    · rw [writers_append, List.mem_append, not_or]
      refine ⟨hwriters, fun hi => ?_⟩
      obtain ⟨x, hx, hxi⟩ := mem_of_writers hi
      exact hnew x hx hxi
  written hp := by
    rw [writers_append]
    exact List.mem_append_left _ (h.written hp)

theorem not_writer (hfirst : ∀ x ∈ accesses, x.1 ≠ i) (reportId : U8) :
    i ∉ writers (accesses ++ [(i, .get reportId)]) := by
  rw [writers_append, List.mem_append, not_or]
  refine ⟨fun hi => ?_, List.not_mem_nil⟩
  obtain ⟨x, hx, hxi⟩ := mem_of_writers hi
  exact hfirst x hx hxi

/-- A program that reads the configuration then holds the one it writes. -/
theorem wanted_first {c : PinConfig} (h : Order c₀ settings accesses c) (hfirst : ∀ x ∈ accesses, x.1 ≠ i)
    (reportId : U8) : updated c (settings i) = wanted c₀ settings (accesses ++ [(i, .get reportId)]) i := by
  have hnot : i ∉ writers accesses := fun hi =>
    not_writer hfirst reportId (by rw [writers_append]; exact List.mem_append_left _ hi)
  have hread := readAfter_first hfirst (.get reportId)
  rw [wanted]
  simp only [hread]
  cases h with
  | none h => rw [if_neg (by rw [← writers, h]; simp)]
  | @one j h =>
    obtain rfl : j = !i := by
      rw [h, List.mem_singleton] at hnot
      cases i <;> cases j <;> simp_all
    rw [if_pos (by rw [← writers, h]; simp)]
  | @two j h =>
    rw [h] at hnot
    cases i <;> cases j <;> simp at hnot

/-- A Set of the configuration a program holds. -/
theorem Order.written {c : PinConfig} (h : Order c₀ settings accesses c) (hread : ∃ x ∈ accesses, x.1 = i)
    (hnot : i ∉ writers accesses) (payload : List U8) :
    Order c₀ settings (accesses ++ [(i, .set payload)]) (wanted c₀ settings accesses i) := by
  have hwriters : writers (accesses ++ [(i, .set payload)]) = writers accesses ++ [i] := by
    rw [writers_append]
    rfl
  cases h with
  | none h =>
    have hnone : ¬ ReadAfter accesses i := fun hr => by
      have hmem : (!i) ∈ writers accesses := readAfter_sets hr
      rw [h] at hmem
      cases hmem
    rw [wanted, if_neg hnone]
    exact .one (by rw [hwriters, h]; rfl)
  | @one j h =>
    obtain rfl : i = !j := by
      rw [h, List.mem_singleton] at hnot
      cases i <;> cases j <;> simp_all
    have hsame : wanted c₀ settings (accesses ++ [(!j, .set payload)]) (!j) =
        wanted c₀ settings accesses (!j) :=
      wanted_append hread
    rw [← hsame]
    exact .two (by rw [hwriters, h]; rfl)
  | @two j h =>
    rw [h] at hnot
    cases i <;> cases j <;> simp at hnot

variable {s : Hosts Bool} {stage : Stage} {nowUs : U64} {r : Except Stop (Stage ⊕ PinConfigReport)}
  {d : Host.Device}
  {w : Bus Bool}

/-- What a part of a call makes of the order. -/
theorem order_after (h : Race c₀ settings s) (hlaw : s.Law info) (hstage : (s.programs i).stage = some stage)
    (hpart : Part (s.busAt i nowUs) stage r w) :
    ∃ c, c.toFirmware = w.features.2.config ∧ Order c₀ settings w.accesses c := by
  obtain ⟨c, hc, horder⟩ := h.order
  rcases hpart.reads_or_sent with ⟨hf, hsets⟩ | ⟨config, available, requestId, rfl, hvalid, rfl, rfl⟩
  · obtain ⟨new, haccesses, -⟩ := hpart.accesses
    refine ⟨c, by rw [hf]; exact hc, ?_⟩
    have hnew : writers new = [] := by
      have happend : writers (s.bus.accesses ++ new) = writers s.bus.accesses := by
        rw [← show w.accesses = s.bus.accesses ++ new from haccesses]
        exact congrArg (List.map Prod.fst) hsets
      rwa [writers_append, List.append_right_eq_self] at happend
    rw [show w.accesses = s.bus.accesses ++ new from haccesses]
    exact horder.append hnew
  · obtain ⟨hread, hnot, hconfig⟩ := (h.racer i).holds config (Or.inr ⟨available, hstage⟩)
    have hboard : (s.busAt i nowUs).features.1 = info := hlaw.bus.board
    rw [(hlaw.fits i).available config available hstage, ← hboard] at hvalid
    have hf :=
      Bus.features_written (w := s.busAt i nowUs) (r := ⟨.ok, Host.resultGpioNone, requestId, config⟩) hvalid
    refine ⟨config, (congrArg (fun f => f.2.config) hf).symm, ?_⟩
    rw [hconfig]
    exact horder.written hread hnot _

/-- What a program holds is still right after it reads something else. -/
theorem holds_get {config : PinConfig} {reportId : U8}
    (h : (∃ x ∈ accesses, x.1 = i) ∧ i ∉ writers accesses ∧ config = wanted c₀ settings accesses i) :
    (∃ x ∈ accesses ++ [(i, .get reportId)], x.1 = i) ∧ i ∉ writers (accesses ++ [(i, .get reportId)]) ∧
      config = wanted c₀ settings (accesses ++ [(i, .get reportId)]) i := by
  obtain ⟨hread, hnot, hconfig⟩ := h
  refine ⟨⟨_, List.mem_concat_self, rfl⟩, ?_, hconfig.trans (wanted_append hread).symm⟩
  rw [writers_append, List.mem_append, not_or]
  exact ⟨hnot, List.not_mem_nil⟩

/-- A program whose call ended, with success only after its Set. -/
theorem Racer.of_none {p : Program} (hstage : p.stage = none)
    (hok : ∀ read, p.result = some (.ok read) → i ∈ writers accesses) : Racer c₀ settings accesses i p where
  waiting st h := by rw [hstage] at h; cases h
  holds config h := by
    rw [hstage] at h
    rcases h with h | ⟨_, h⟩ <;> cases h
  written h := by
    rw [hstage] at h
    rcases h with ⟨_, _, h⟩ | ⟨read, h⟩
    · cases h
    · exact hok read h

/-- A program that holds the configuration it writes. -/
theorem Racer.of_holds {p : Program} {config : PinConfig}
    (hstage : p.stage = some (.start config) ∨ ∃ available, p.stage = some (.send config available))
    (hholds : (∃ x ∈ accesses, x.1 = i) ∧ i ∉ writers accesses ∧ config = wanted c₀ settings accesses i)
    (hok : ∀ read, p.result = some (.ok read) → i ∈ writers accesses) : Racer c₀ settings accesses i p where
  waiting st h := by rcases hstage with hs | ⟨_, hs⟩ <;> rw [hs] at h <;> cases h
  holds config' h := by
    obtain rfl : config' = config := by
      rcases hstage with hs | ⟨_, hs⟩ <;> rw [hs] at h <;> rcases h with h | ⟨_, h⟩ <;> cases h <;> rfl
    exact hholds
  written h := by
    rcases h with ⟨_, _, h⟩ | ⟨read, h⟩
    · rcases hstage with hs | ⟨_, hs⟩ <;> rw [hs] at h <;> cases h
    · exact hok read h

/-- The program after a part of its call. -/
theorem racer_after (h : Race c₀ settings s) (hstage : (s.programs i).stage = some stage)
    (hpart : Part (s.busAt i nowUs) stage r w) :
    Racer c₀ settings w.accesses i ((s.programs i).after r d) := by
  obtain ⟨c, hc, horder⟩ := h.order
  have hracer := h.racer i
  have hkept : ∀ new, i ∈ writers s.bus.accesses → i ∈ writers (s.bus.accesses ++ new) := fun new hi => by
    rw [writers_append]
    exact List.mem_append_left _ hi
  have hok : ∀ read, (s.programs i).result = some (.ok read) → i ∈ writers s.bus.accesses :=
    fun read hread => hracer.written (Or.inr ⟨read, hread⟩)
  cases hpart with
  | read hread hconfig =>
    obtain ⟨rfl, hfirst⟩ := hracer.waiting _ hstage
    have hsame : _ = c := PinConfig.toFirmware_injective (hread.trans hc.symm)
    refine .of_holds (Or.inl rfl) ⟨⟨_, List.mem_concat_self, rfl⟩, not_writer hfirst _, ?_⟩
      fun read h => hkept _ (hok read h)
    rw [withPins_eq hconfig, hsame]
    exact wanted_first horder hfirst _
  | known => exact .of_holds (Or.inr ⟨_, rfl⟩) (hracer.holds _ (Or.inl hstage)) hok
  | informed =>
    exact .of_holds (Or.inr ⟨_, rfl⟩) (holds_get (hracer.holds _ (Or.inl hstage))) fun read h =>
      hkept _ (hok read h)
  | sent =>
    refine ⟨(fun st hst => by cases hst), fun config' hholds => ?_, fun _ => ?_⟩
    · rcases hholds with heq | ⟨_, heq⟩ <;> cases heq
    · show i ∈ writers (s.bus.accesses ++ [_])
      rw [writers_append]
      exact List.mem_append_right _ List.mem_cons_self
  | applied => exact .of_none rfl fun read hread => hkept _ (hracer.written (Or.inl ⟨_, _, hstage⟩))
  | _ => exact .of_none rfl fun read hread => by cases hread

/-- Every step of two programs that only go on with their calls. -/
theorem race_step (s : Hosts Bool) (a : Act Bool) (h : s.Law info ∧ Race c₀ settings s)
    (ha : a.Allowed info ∧ ∀ i d call, a ≠ .begin i d call) :
    (s.step a).Law info ∧ Race c₀ settings (s.step a) := by
  refine ⟨Hosts.law_step s a h.1 ha.1, ?_⟩
  obtain ⟨hlaw, hrace⟩ := h
  cases a with
  | begin i d call => exact absurd rfl (ha.2 i d call)
  | turn i nowUs =>
    rcases hstage : (s.programs i).stage with _ | stage
    · rw [Hosts.step, hstage]
      exact hrace
    · obtain ⟨r, d, w, hpart, -, heq⟩ := Hosts.turn_cases hlaw hstage nowUs
      rw [heq]
      refine ⟨order_after hrace hlaw hstage hpart, fun j => ?_⟩
      rcases eq_or_ne j i with rfl | hj
      · rw [Hosts.set_programs_self]
        exact racer_after hrace hstage hpart
      · obtain ⟨new, haccesses, hnew⟩ := hpart.accesses
        have hnot : ∀ x ∈ new, x.1 ≠ j := fun x hx => by rw [hnew x hx]; exact hj.symm
        have hother := (hrace.racer j).append hnot
        rw [Hosts.set_programs_of_ne _ _ hj]
        rw [← show w.accesses = s.bus.accesses ++ new from haccesses] at hother
        exact hother
  | device op =>
    obtain ⟨c, hc, horder⟩ := hrace.order
    refine ⟨⟨c, ?_, horder⟩, hrace.racer⟩
    rw [hc]
    exact congrArg (fun f => f.2.config) (Firmware.Device.features_step s.bus.device ha.1).symm

end Race

/-! ### Two successful calls -/

/-- Two programs that begin to change pins of a device. -/
def together (device : Firmware.Device) (handles : Bool → Host.Device)
    (settings : Bool → List (U8 × PinSetting)) : Hosts Bool where
  bus := ⟨device, false, 0, []⟩
  programs i := ⟨handles i, .updatePins (settings i), some (.update (settings i)), none⟩

/-- A pin of the device has a setting. -/
def Holds (config : Firmware.PinConfig) (n : Gpio) (x : PinSetting) : Prop :=
  config.mode n = x.mode.toU8 ∧ config.param n = x.param

/-- Both updates are there, and the other pins are as they were. -/
structure Kept (before after : Firmware.PinConfig) (settings : Bool → List (U8 × PinSetting)) : Prop where
  updates : ∀ i n x, requested (settings i) n = some x → Holds after n x
  others : ∀ n, (∀ i, requested (settings i) n = none) →
    after.mode n = before.mode n ∧ after.param n = before.param n

/-- The call whose Set came second had read after the first Set, or what the first one asks for was there
    before. -/
def Saved (before : Firmware.PinConfig) (settings : Bool → List (U8 × PinSetting))
    (accesses : List (Bool × Access)) : Prop :=
  ∃ i, (writers accesses).head? = some i ∧
    (ReadAfter accesses (!i) ∨ ∀ n x, requested (settings i) n = some x → Holds before n x)

theorem holds_toFirmware {c : PinConfig} {n : Gpio} {x : PinSetting} : Holds c.toFirmware n x ↔ c n = x := by
  constructor
  · rintro ⟨hmode, hparam⟩
    have hsome : some (c n).mode = some x.mode := by
      rw [← Host.PinMode.ofU8_toU8, show (c n).mode.toU8 = x.mode.toU8 from hmode, Host.PinMode.ofU8_toU8]
    cases hc : c n
    simp_all [PinConfig.toFirmware]
  · rintro rfl
    exact ⟨rfl, rfl⟩

theorem updated_of_some {c : PinConfig} {settings : List (U8 × PinSetting)} {n : Gpio} {x : PinSetting}
    (h : requested settings n = some x) : updated c settings n = x := by rw [updated, h, Option.getD_some]

theorem updated_of_none {c : PinConfig} {settings : List (U8 × PinSetting)} {n : Gpio}
    (h : requested settings n = none) : updated c settings n = c n := by rw [updated, h, Option.getD_none]

/-- What the second Set leaves of the update of the first. -/
theorem kept_iff {c₀ : PinConfig} {settings : Bool → List (U8 × PinSetting)}
    {accesses : List (Bool × Access)} {i : Bool}
    (hdisjoint : ∀ n, requested (settings false) n = none ∨ requested (settings true) n = none) :
    Kept c₀.toFirmware (wanted c₀ settings accesses (!i)).toFirmware settings ↔
      ReadAfter accesses (!i) ∨ ∀ n x, requested (settings i) n = some x → Holds c₀.toFirmware n x := by
  have hsecond : ∀ n x, requested (settings i) n = some x → requested (settings !i) n = none :=
    fun n x h => by
      cases i
      · exact (hdisjoint n).resolve_left (by rw [h]; exact Option.some_ne_none x)
      · exact (hdisjoint n).resolve_right (by rw [h]; exact Option.some_ne_none x)
  rw [wanted, Bool.not_not]
  set base := if ReadAfter accesses (!i) then updated c₀ (settings i) else c₀ with hbase
  -- The second Set contains its own update, so all depends on what it was based on.
  have hkept : Kept c₀.toFirmware (updated base (settings !i)).toFirmware settings ↔
      (∀ n x, requested (settings i) n = some x → base n = x) ∧
        ∀ n, (∀ j, requested (settings j) n = none) → base n = c₀ n := by
    constructor
    · rintro ⟨hupdates, hothers⟩
      refine ⟨fun n x h => ?_, fun n h => ?_⟩
      · rw [← updated_of_none (c := base) (hsecond n x h)]
        exact holds_toFirmware.mp (hupdates i n x h)
      · rw [← updated_of_none (c := base) (h !i)]
        exact holds_toFirmware.mp (hothers n h)
    · rintro ⟨hfirst, hothers⟩
      refine ⟨fun j n x h => holds_toFirmware.mpr ?_, fun n h => ?_⟩
      · rcases Bool.eq_or_eq_not j i with rfl | rfl
        · rw [updated_of_none (hsecond n x h)]
          exact hfirst n x h
        · exact updated_of_some h
      · exact holds_toFirmware.mpr ((updated_of_none (h !i)).trans (hothers n h))
  rw [hkept]
  by_cases hread : ReadAfter accesses (!i)
  · rw [if_pos hread] at hbase
    rw [hbase]
    exact iff_of_true ⟨fun n x h => updated_of_some h, fun n h => updated_of_none (h i)⟩ (Or.inl hread)
  · rw [if_neg hread] at hbase
    rw [hbase, or_iff_right hread, and_iff_left fun _ _ => rfl]
    exact forall₃_congr fun n x _ => holds_toFirmware.symm

/-- Two calls of `update_pins` for different pins that both succeed keep both updates exactly when the
    second Set was based on the first, or the first one changed nothing. -/
theorem updates_kept (info : Firmware.DeviceInfo) (startUs : U64) (ops : List Firmware.Op)
    (handles : Bool → Host.Device) (settings : Bool → List (U8 × PinSetting)) (acts : List (Act Bool))
    (hhandles : ∀ i known, (handles i).info = some known → known.available = info.available)
    (hdisjoint : ∀ n, requested (settings false) n = none ∨ requested (settings true) n = none)
    (hacts : ∀ a ∈ acts, a.Allowed info ∧ ∀ i d call, a ≠ .begin i d call) :
    let device := Lib.run Firmware.Device.step (.start info startUs) ops
    let s := Lib.run Hosts.step (together device handles settings) acts
    (∀ i, ∃ read, (s.programs i).result = some (.ok read)) →
      (Kept device.engine.config s.bus.device.engine.config settings ↔
        Saved device.engine.config settings s.bus.accesses) := by
  intro device s hok
  have hboard := Firmware.Device.info_run info startUs ops
  have hvalid : device.engine.config.Valid device.engine.info.available :=
    (Firmware.Device.inv_run info startUs ops).valid
  obtain ⟨c₀, hc₀⟩ := PinConfig.exists_toFirmware hvalid
  have hlaw : (together device handles settings).Law info := by
    refine ⟨⟨hboard, hvalid, fun x hx => by cases hx⟩, fun i => ⟨hhandles i, ?_, ?_, ?_⟩⟩
    · exact fun _ _ h => by cases h
    · exact fun _ _ h => by cases h
    · exact fun _ _ h => by cases h
  have hrace : Race c₀ settings (together device handles settings) := by
    refine ⟨⟨c₀, hc₀, .none rfl⟩, fun i => ⟨fun st h => ?_, fun config h => ?_, fun h => ?_⟩⟩
    · cases h
      exact ⟨rfl, fun x hx => by cases hx⟩
    · rcases h with h | ⟨_, h⟩ <;> cases h
    · rcases h with ⟨_, _, h⟩ | ⟨_, h⟩ <;> cases h
  obtain ⟨-, ⟨c, hc, horder⟩, hracer⟩ := Lib.run_of_forall race_step acts ⟨hlaw, hrace⟩ hacts
  have hwrote : ∀ i, i ∈ writers s.bus.accesses := fun i => (hracer i).written (Or.inr (hok i))
  have hconfig : s.bus.device.engine.config = c.toFirmware := hc.symm
  rw [hconfig, ← hc₀]
  cases horder with
  | none h => exact absurd (hwrote false) (by rw [h]; exact List.not_mem_nil)
  | one h => 
    have h0 := hwrote false
    have h1 := hwrote true
    rw [h, List.mem_singleton] at h0 h1
    exact absurd (h0.trans h1.symm) (by decide)
  | @two i h =>
    rw [kept_iff hdisjoint, Saved]
    constructor
    · exact fun hi => ⟨i, by rw [h]; rfl, hi⟩
    · rintro ⟨j, hj, hi⟩
      rw [h] at hj
      cases hj
      exact hi

/-- One program wants GPIO3 as an output, the other GPIO4. -/
def outputSettings (i : Bool) : List (U8 × PinSetting) := [(if i then 4 else 3, ⟨.output, 1⟩)]

def updatesAfter (acts : List (Act Bool)) : Hosts Bool :=
  Lib.run Hosts.step (together
    (Lib.run Firmware.Device.step (.start (Firmware.Device.sampleInfo 0x3FFFFFFF) 0) [])
    (fun i => .new "E6614103E7" (if i then 7 else 1) 2) outputSettings) acts

/-- Both programs read before one of them writes. -/
def crossing : List (Act Bool) :=
  [.turn false 0, .turn true 0] ++ List.replicate 3 (.turn false 10) ++ List.replicate 3 (.turn true 20)

theorem isOk_result {s : Hosts Bool} (h : ∀ i, (s.programs i).result.any (fun r => r.isOk) = true)
    (i : Bool) : ∃ read, (s.programs i).result = some (.ok read) := by
  obtain ⟨r, hr, hok⟩ := (Option.any_eq_true _ _).mp (h i)
  rcases r with e | read
  · cases hok
  · exact ⟨read, hr⟩

/-- One program after the other. -/
def inTurn : List (Act Bool) := List.replicate 4 (.turn true 0) ++ List.replicate 4 (.turn false 10)

theorem updates_kept_sample :
    Kept (Lib.run Firmware.Device.step (.start (Firmware.Device.sampleInfo 0x3FFFFFFF) 0) []).engine.config
      (updatesAfter inTurn).bus.device.engine.config outputSettings := by
  have hok : ∀ i, ((updatesAfter inTurn).programs i).result.any (fun r => r.isOk) = true := by decide +kernel
  have hsaved : (writers (updatesAfter inTurn).bus.accesses).head? = some true ∧
      ReadAfter (updatesAfter inTurn).bus.accesses false := by decide +kernel
  unfold updatesAfter at hok hsaved ⊢
  refine (updates_kept (Firmware.Device.sampleInfo 0x3FFFFFFF) 0 [] _ outputSettings inTurn
    (fun i known h => by cases h) (by decide +kernel) (fun a ha => ?_) (isOk_result hok)).mpr
    ⟨true, hsaved.1, Or.inl hsaved.2⟩
  rcases List.mem_append.mp ha with ha | ha
  · obtain rfl := List.eq_of_mem_replicate ha
    exact ⟨trivial, nofun⟩
  · obtain rfl := List.eq_of_mem_replicate ha
    exact ⟨trivial, nofun⟩

/-- Both calls succeed, and the second one takes the update of the first away. -/
theorem update_lost :
    (∀ n, requested (outputSettings false) n = none ∨ requested (outputSettings true) n = none) ∧
    (∀ i, ∃ read, ((updatesAfter crossing).programs i).result = some (.ok read)) ∧
    ¬ Kept (Lib.run Firmware.Device.step (.start (Firmware.Device.sampleInfo 0x3FFFFFFF) 0) []).engine.config
      (updatesAfter crossing).bus.device.engine.config outputSettings := by
  refine ⟨by decide +kernel, isOk_result (by decide +kernel), fun h => ?_⟩
  have hlost : ¬ Holds (updatesAfter crossing).bus.device.engine.config 3 ⟨.output, 1⟩ := by
    unfold Holds
    decide +kernel
  exact hlost (h.updates false 3 _ (by decide +kernel))

end Hidpin.System
