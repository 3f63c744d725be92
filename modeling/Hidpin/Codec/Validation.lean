import Hidpin.Firmware.Machine
import Hidpin.Go.Protocol
import Hidpin.Python.Protocol

/-! Pin configuration Sets: the firmware and the three host libraries make the same checks in the same
    order (`docs/PROTOCOL.md` 6.3), an accepted payload is its configuration, and a rejected one leaves
    the engine alone. -/

namespace Hidpin.Codec
open Firmware (Gpio gpioCount reportPayloadLen payloadMode payloadParam)

/-- A check that has been made: whether it passed, and the result and the GPIO it reports if not. -/
structure Check where
  passed : Bool
  result : U8
  gpio : U8

/-- The checks of one entry, in their order. -/
def entryChecks (payload : List U8) (available : U32) (n : Gpio) : List Check :=
  let mode := payloadMode payload n
  let param := payloadParam payload n
  [⟨decide (mode ≤ 4), 2, n.toU8⟩,
    ⟨Firmware.rawBit available n || decide (mode = 0), 3, n.toU8⟩,
    ⟨decide (mode = 0 → param = 0), 4, n.toU8⟩,
    ⟨decide (mode = 4 → param ≤ 1), 5, n.toU8⟩]

/-- The checks of a payload, in their order. -/
def checks (payload : List U8) (available : U32) : List Check :=
  ⟨decide (payload.length = reportPayloadLen), 1, 0xFF⟩ ::
    (List.finRange gpioCount).flatMap (entryChecks payload available)

/-- What the first failing check reports. -/
def firstFailing (checks : List Check) : U8 × U8 :=
  match checks.find? fun check => !check.passed with
  | some check => (check.result, check.gpio)
  | none => (0, 0xFF)

/-- The `request_id` that is recorded. -/
def recordedId (payload : List U8) : U8 := if 3 ≤ payload.length then payload.getD 2 0 else 0

/-! ### One validator -/

theorem firstFailing_cons (check : Check) (rest : List Check) : firstFailing (check :: rest) =
    if check.passed = false then (check.result, check.gpio) else firstFailing rest := by
  cases h : check.passed <;> simp [firstFailing, h]

/-- The checks of an entry as the validators make them, one branch each, in their own words. -/
theorem firstFailing_entry {payload : List U8} {available : U32} {n : Gpio} {mode noGpio param level : Prop}
    [Decidable mode] [Decidable noGpio] [Decidable param] [Decidable level]
    (hmode : mode ↔ payloadMode payload n > 4)
    (hnoGpio : noGpio ↔ Firmware.rawBit available n = false ∧ payloadMode payload n ≠ 0)
    (hparam : param ↔ payloadMode payload n = 0 ∧ payloadParam payload n ≠ 0)
    (hlevel : level ↔ payloadMode payload n = 4 ∧ payloadParam payload n > 1) (rest : List Check) :
    firstFailing (entryChecks payload available n ++ rest) =
      if mode then (2, n.toU8) else if noGpio then (3, n.toU8) else if param then (4, n.toU8)
      else if level then (5, n.toU8) else firstFailing rest := by
  have h2 : ((Firmware.rawBit available n || decide (payloadMode payload n = 0)) = false) ↔
      Firmware.rawBit available n = false ∧ payloadMode payload n ≠ 0 := by
    rw [Bool.or_eq_false_iff, decide_eq_false_iff_not]
  simp only [entryChecks, List.cons_append, List.nil_append, firstFailing_cons, decide_eq_false_iff_not, h2,
    BitVec.not_le, Classical.not_imp, hmode, hnoGpio, hparam, hlevel]

/-- The loop of the firmware. -/
theorem firmware_entries (payload : List U8) (available : U32) :
    ∀ (ns : List Gpio) (parsed : Firmware.PinConfig),
      ((Firmware.decodeEntries payload available ns parsed).1,
          (Firmware.decodeEntries payload available ns parsed).2.1) =
        firstFailing (ns.flatMap (entryChecks payload available))
  | [], _ => rfl
  | n :: ns, parsed => by
    rw [List.flatMap_cons, firstFailing_entry
      (show payloadMode payload n > Firmware.modeOutput ↔ _ from Iff.rfl)
      (show Firmware.rawBit available n = false ∧ payloadMode payload n ≠ Firmware.modeUnused ↔
        _ from Iff.rfl)
      (show payloadMode payload n = Firmware.modeUnused ∧ payloadParam payload n ≠ 0 ↔ _ from Iff.rfl)
      (show payloadMode payload n = Firmware.modeOutput ∧ payloadParam payload n > 1 ↔ _ from Iff.rfl)]
    simp only [Firmware.decodeEntries, apply_ite Prod.fst, apply_ite Prod.snd]
    split_ifs
    · rfl
    · rfl
    · rfl
    · rfl
    · exact firmware_entries payload available ns _

/-- The test for an available GPIO that all host libraries make. -/
theorem rawBit_eq_false {available : U32} {n : Gpio} :
    Firmware.rawBit available n = false ↔ (available >>> n.val) &&& 1#32 = 0#32 := by
  simp [Firmware.rawBit]

/-- The loop of the Rust library. -/
theorem rust_entries (payload : List U8) (available : U32) : ∀ ns : List Gpio,
    ((Host.validateEntries payload available ns).1.code, (Host.validateEntries payload available ns).2) =
      firstFailing (ns.flatMap (entryChecks payload available))
  | [] => rfl
  | n :: ns => by
    rw [List.flatMap_cons, firstFailing_entry
      (show Host.modeAt payload n > Host.PinMode.output.toU8 ↔ _ from Iff.rfl)
      (show (available >>> n.val) &&& 1#32 = 0#32 ∧ Host.modeAt payload n ≠ Host.PinMode.unused.toU8 ↔ _ from
        and_congr_left' rawBit_eq_false.symm)
      (show Host.modeAt payload n = Host.PinMode.unused.toU8 ∧ Host.paramAt payload n ≠ 0 ↔ _ from Iff.rfl)
      (show Host.modeAt payload n = Host.PinMode.output.toU8 ∧ Host.paramAt payload n > 1 ↔ _ from Iff.rfl)]
    simp only [Host.validateEntries, apply_ite Prod.fst, apply_ite Prod.snd, apply_ite Host.ResultCode.code]
    split_ifs
    · rfl
    · rfl
    · rfl
    · rfl
    · exact rust_entries payload available ns

/-- The loop of the Go library. -/
theorem go_entries (payload : List U8) (available : U32) (id : U8) : ∀ ns : List Gpio,
    Go.validateEntries payload available id ns =
      ((firstFailing (ns.flatMap (entryChecks payload available))).1,
        (firstFailing (ns.flatMap (entryChecks payload available))).2, id)
  | [] => rfl
  | n :: ns => by
    rw [List.flatMap_cons, firstFailing_entry
      (show Go.modeAt payload n > Go.modeOutput ↔ _ from Iff.rfl)
      (show (available >>> n.val) &&& 1#32 = 0#32 ∧ Go.modeAt payload n ≠ Go.modeUnused ↔ _ from
        and_congr_left' rawBit_eq_false.symm)
      (show Go.modeAt payload n = Go.modeUnused ∧ Go.paramAt payload n ≠ 0 ↔ _ from Iff.rfl)
      (show Go.modeAt payload n = Go.modeOutput ∧ Go.paramAt payload n > 1 ↔ _ from Iff.rfl)]
    simp only [Go.validateEntries]
    split_ifs
    · rfl
    · rfl
    · rfl
    · rfl
    · exact go_entries payload available id ns

/-- The test for an available GPIO on the integers of Python. -/
theorem rawBit_toNat {available : U32} {n : Gpio} :
    Firmware.rawBit available n = false ↔ (available.toNat >>> n.val) &&& 1 = 0 := by
  rw [rawBit_eq_false, ← BitVec.toNat_inj, BitVec.toNat_and, BitVec.toNat_ushiftRight]
  rfl

/-- The loop of the Python library. -/
theorem python_entries (payload : List U8) (available : U32) (id : ℕ) : ∀ ns : List Gpio,
    Python.validateEntries payload available.toNat id ns =
      ((firstFailing (ns.flatMap (entryChecks payload available))).1.toNat,
        (firstFailing (ns.flatMap (entryChecks payload available))).2.toNat, id)
  | [] => rfl
  | n :: ns => by
    have hmode : Python.item payload (3 + 2 * n.val) = (payloadMode payload n).toNat := rfl
    have hparam : Python.item payload (4 + 2 * n.val) = (payloadParam payload n).toNat := by
      rw [show 4 + 2 * n.val = Host.pinConfigOffset + 2 * n.val + 1 by simp [Host.pinConfigOffset]; omega]
      rfl
    rw [List.flatMap_cons, firstFailing_entry
      (show Python.item payload (3 + 2 * n.val) > Host.PinMode.output.toU8.toNat ↔ _ from Iff.rfl)
      (show (available.toNat >>> n.val) &&& 1 = 0 ∧
          Python.item payload (3 + 2 * n.val) ≠ Host.PinMode.unused.toU8.toNat ↔ _ from
        and_congr rawBit_toNat.symm (by rw [hmode, Ne, BitVec.toNat_inj]; rfl))
      (show Python.item payload (3 + 2 * n.val) = Host.PinMode.unused.toU8.toNat ∧
          Python.item payload (4 + 2 * n.val) ≠ 0 ↔ _ from
        and_congr (BitVec.toNat_inj (y := Host.PinMode.unused.toU8))
          (by rw [hparam]; exact not_congr (BitVec.toNat_inj (y := 0))))
      (show Python.item payload (3 + 2 * n.val) = Host.PinMode.output.toU8.toNat ∧
          Python.item payload (4 + 2 * n.val) > 1 ↔ _ from by
        rw [hmode, hparam, BitVec.toNat_inj]; rfl)]
    simp only [Python.validateEntries]
    have hn : n.toU8.toNat = n.val := Host.toNat_toU8 n
    split_ifs
    · rw [hn]; rfl
    · rw [hn]; rfl
    · rw [hn]; rfl
    · rw [hn]; rfl
    · exact python_entries payload available id ns

/-! ### Round trips -/

theorem foldl_update {ι α : Type*} [DecidableEq ι] (f : ι → α) : ∀ (is : List ι) (g : ι → α) (j : ι),
    is.foldl (fun g i => Function.update g i (f i)) g j = if j ∈ is then f j else g j
  | [], _, _ => by simp
  | i :: is, g, j => by
    rw [List.foldl_cons, foldl_update f is, Function.update_apply]
    simp only [List.mem_cons]
    by_cases hj : j = i
    · subst hj; simp
    · simp [hj]

/-- All entries stored one after the other. -/
theorem foldl_update_all {α : Type*} (f g : Gpio → α) :
    (List.finRange gpioCount).foldl (fun g n => Function.update g n (f n)) g = f := by
  funext n
  rw [foldl_update, if_pos (List.mem_finRange n)]

/-- The entries of a payload, one after the other, are the rest of it. -/
theorem entries_of_payload {payload : List U8} (hlen : payload.length = reportPayloadLen) :
    [Host.byteAt payload 0, Host.byteAt payload 1, Host.byteAt payload 2] ++
      (List.finRange gpioCount).flatMap (fun n => [payloadMode payload n, payloadParam payload n]) =
        payload := by
  have hlen : payload.length = 63 := hlen
  have hentry : ∀ n : Gpio,
      [payloadMode payload n, payloadParam payload n] = Lib.slice payload (3 + 2 * n.val) 2 := by
    intro n
    have hn : n.val < 30 := n.isLt
    rw [← Lib.slice_append payload (3 + 2 * n.val) 1 1, Lib.slice_one (by omega), Lib.slice_one (by omega)]
    rfl
  have hhead : [Host.byteAt payload 0, Host.byteAt payload 1, Host.byteAt payload 2] =
      Lib.slice payload 0 3 := by
    rw [← Lib.slice_append payload 0 1 2, ← Lib.slice_append payload (0 + 1) 1 1, Lib.slice_one (by omega),
      Lib.slice_one (by omega), Lib.slice_one (by omega)]
    rfl
  have htail : (List.finRange gpioCount).flatMap (fun n => Lib.slice payload (3 + 2 * n.val) 2) =
      Lib.slice payload 3 60 := by
    rw [← Lib.flatMap_slice payload 3 2 30, ← List.map_coe_finRange_eq_range, List.flatMap_map]
  rw [List.flatMap_congr fun n _ => hentry n, htail, hhead, Lib.slice_append, Lib.slice_all (by omega)]

/-- A mode that passes the validation has a name. -/
theorem exists_mode : ∀ {mode : U8}, mode ≤ 4 → ∃ m : Host.PinMode, m.toU8 = mode := by
  have h : ∀ mode : U8, mode ≤ 4 → (Host.PinMode.ofU8 mode).any (fun m => m.toU8 = mode) = true := by decide
  intro mode hmode
  obtain ⟨m, _, hm⟩ := (Option.any_eq_true _ _).mp (h mode hmode)
  exact ⟨m, of_decide_eq_true hm⟩

variable {payload : List U8} {m : Gpio → Host.PinMode}

theorem rust_settings (hm : ∀ n, (m n).toU8 = payloadMode payload n) :
    ∀ (ns : List Gpio) (config : Host.PinConfig), Host.decodeSettings payload ns config =
      .ok (ns.foldl (fun c n => Function.update c n ⟨m n, payloadParam payload n⟩) config)
  | [], _ => rfl
  | n :: ns, config => by
    have hmode : Host.PinMode.ofU8 (Host.modeAt payload n) = some (m n) := by
      rw [show Host.modeAt payload n = (m n).toU8 from (hm n).symm, Host.PinMode.ofU8_toU8]
    rw [Host.decodeSettings, hmode]
    exact rust_settings hm ns _

theorem go_settings (hm : ∀ n, (m n).toU8 = payloadMode payload n) :
    ∀ (ns : List Gpio) (config : Go.PinConfig), Go.decodeSettings payload ns config =
      .ok (ns.foldl (fun c n => Function.update c n ⟨payloadMode payload n, payloadParam payload n⟩) config)
  | [], _ => rfl
  | n :: ns, config => by
    have hmode : ¬ Go.modeAt payload n > Go.modeOutput := by
      rw [show Go.modeAt payload n = (m n).toU8 from (hm n).symm]
      cases m n <;> decide
    rw [Go.decodeSettings, if_neg hmode]
    exact go_settings hm ns _

theorem item_param (payload : List U8) (n : Gpio) :
    Python.item payload (4 + 2 * n.val) = (payloadParam payload n).toNat := by
  rw [Python.item, payloadParam, show 4 + 2 * n.val = 3 + 2 * n.val + 1 by omega]

theorem python_settings (hm : ∀ n, (m n).toU8 = payloadMode payload n) :
    ∀ (ns : List Gpio) (pins : Python.PinConfig), Python.decodeSettings payload ns pins =
      .ok (ns.foldl (fun c n => Function.update c n ⟨m n, (payloadParam payload n).toNat⟩) pins)
  | [], _ => rfl
  | n :: ns, pins => by
    have hitem : Python.item payload (3 + 2 * n.val) = (m n).toU8.toNat := congrArg BitVec.toNat (hm n).symm
    have hmode : ¬ (m n).toU8.toNat > Host.PinMode.output.toU8.toNat := by cases m n <;> decide
    rw [Python.decodeSettings]
    simp only [hitem, if_neg hmode, item_param]
    rw [BitVec.ofNat_toNat, BitVec.setWidth_eq, Host.PinMode.ofU8_toU8]
    exact python_settings hm ns _

/-- The three bytes in front, written one after the other. -/
theorem put_three (result gpio id : U8) :
    Lib.put (Lib.put (Lib.put (List.replicate reportPayloadLen 0) 0 [result]) 1 [gpio]) 2 [id] =
      [result, gpio, id] ++ List.replicate 60 0 := rfl

/-- The three bytes in front and the entries, written into a buffer of zeros. -/
theorem go_encode (r : Go.PinConfigReport) : r.encode = [r.result, r.resultGpio, r.requestId] ++
    (List.finRange gpioCount).flatMap fun n => [(r.config n).mode, (r.config n).param] := by
  have hentry : ∀ n : Gpio, [(r.config n).mode, (r.config n).param].length = 2 := fun _ => rfl
  have hlen : 2 * (List.finRange gpioCount).length ≤ 60 := by rw [List.length_finRange]; decide
  rw [Go.PinConfigReport.encode]
  simp only [put_three]
  rw [Lib.putEach_append hentry _ rfl hlen, List.length_finRange]
  exact List.append_nil _

/-- Entries with the numbers from `i` on. -/
def EntriesFrom (i : ℕ) (ns : List Gpio) : Prop := ns.map Fin.val = List.range' i ns.length

theorem python_putSettings {config : Python.PinConfig} {param : Gpio → U8}
    (hparam : ∀ n, (config n).param = (param n).toNat) : ∀ (ns : List Gpio) {i k : ℕ} {l : List U8},
      EntriesFrom i ns → l.length = 3 + 2 * i → 2 * ns.length ≤ k →
        Python.putSettings config ns (l ++ List.replicate k 0) =
          .ok (l ++ ns.flatMap (fun n => [(config n).mode.toU8, param n]) ++
            List.replicate (k - 2 * ns.length) 0)
  | [], _, _, _, _, _, _ => by simp [Python.putSettings]
  | n :: ns, i, k, l, hns, hl, hk => by
    rw [EntriesFrom, List.map_cons, List.length_cons, List.range'_succ, List.cons.injEq] at hns
    rw [List.length_cons] at hk
    have hn : n.val = i := hns.1
    have hk' : k - 1 - 1 - 2 * ns.length = k - 2 * (ns.length + 1) := by omega
    have hbyte : Python.byte (config n).param = .ok (param n) := by
      rw [hparam, Python.byte, if_pos (param n).isLt, BitVec.ofNat_toNat, BitVec.setWidth_eq]
    have hlen : (l ++ [(config n).mode.toU8]).length = 4 + 2 * n.val := by
      rw [List.length_append, hl, hn, List.length_singleton]; omega
    have hrest : (l ++ [(config n).mode.toU8] ++ [param n]).length = 3 + 2 * (i + 1) := by
      rw [List.length_append, hlen, hn, List.length_singleton]; omega
    rw [Python.putSettings, Lib.put_append (by rw [hl, hn]), hbyte]
    simp only [bind, Except.bind, List.length_singleton]
    rw [Lib.put_append hlen, List.length_singleton,
      python_putSettings hparam ns hns.2 hrest (by omega)]
    simp only [List.flatMap_cons, List.append_assoc, List.length_cons, List.cons_append, List.nil_append]
    rw [hk']

theorem python_encode {config : Python.PinConfig} {param : Gpio → U8}
    (hparam : ∀ n, (config n).param = (param n).toNat) (result gpio id : U8) :
    Python.encodePinConfig ⟨result.toNat, gpio.toNat, id.toNat, config⟩ = .ok ([result, gpio, id] ++
      (List.finRange gpioCount).flatMap fun n => [(config n).mode.toU8, param n]) := by
  have hbyte : ∀ b : U8, Python.byte b.toNat = .ok b := fun b => by
    rw [Python.byte, if_pos b.isLt, BitVec.ofNat_toNat, BitVec.setWidth_eq]
  have h := python_putSettings hparam (List.finRange gpioCount) (i := 0) (k := 60)
    (l := [result, gpio, id])
    (List.map_coe_finRange_eq_range.trans List.range_eq_range') rfl (by decide)
  rw [List.length_finRange, show 60 - 2 * gpioCount = 0 from rfl, List.replicate_zero, List.append_nil] at h
  simp only [Python.encodePinConfig, hbyte, bind, Except.bind, put_three]
  exact h

/-! ### Sets -/

/-- The first three bytes of a payload. -/
abbrev resultByte (payload : List U8) : U8 := Host.byteAt payload 0
abbrev gpioByte (payload : List U8) : U8 := Host.byteAt payload 1
abbrev idByte (payload : List U8) : U8 := Host.byteAt payload 2

/-- Every implementation decodes a payload to its 30 pairs, and encodes them, with the first three bytes
    of the payload, to the payload. -/
structure RoundTrips (payload : List U8) (available : U32) : Prop where
  firmware : (Firmware.pinConfigDecodeSet payload available).config =
      some ⟨payloadMode payload, payloadParam payload⟩ ∧
    Firmware.encodePinConfig ⟨resultByte payload, gpioByte payload, idByte payload,
      ⟨payloadMode payload, payloadParam payload⟩⟩ = payload
  rust : ∃ config : Host.PinConfig,
    (∀ n, (config n).mode.toU8 = payloadMode payload n ∧ (config n).param = payloadParam payload n) ∧
    Host.decodePinConfig payload =
      .ok ⟨⟨resultByte payload⟩, gpioByte payload, idByte payload, config⟩ ∧
    Host.PinConfigReport.encode ⟨⟨resultByte payload⟩, gpioByte payload, idByte payload, config⟩ = payload
  go : Go.decodePinConfig payload = .ok ⟨resultByte payload, gpioByte payload, idByte payload,
      fun n => ⟨payloadMode payload n, payloadParam payload n⟩⟩ ∧
    Go.PinConfigReport.encode ⟨resultByte payload, gpioByte payload, idByte payload,
      fun n => ⟨payloadMode payload n, payloadParam payload n⟩⟩ = payload
  python : ∃ config : Python.PinConfig,
    (∀ n, (config n).mode.toU8 = payloadMode payload n ∧ (config n).param = (payloadParam payload n).toNat) ∧
    Python.decodePinConfig payload =
      .ok ⟨(resultByte payload).toNat, (gpioByte payload).toNat, (idByte payload).toNat, config⟩ ∧
    Python.encodePinConfig ⟨(resultByte payload).toNat, (gpioByte payload).toNat, (idByte payload).toNat,
      config⟩ = .ok payload

theorem roundTrips_of_valid {payload : List U8} {available : U32} (hlen : payload.length = reportPayloadLen)
    (hv : (Firmware.payloadConfig payload).Valid available) : RoundTrips payload available := by
  choose m hm using fun n => exists_mode (hv n).1
  have hentries := entries_of_payload hlen
  have hmodes : (fun n => [payloadMode payload n, payloadParam payload n]) =
      fun n => [(m n).toU8, payloadParam payload n] := funext fun n => by rw [hm]; rfl
  constructor
  · exact ⟨(Firmware.decodeSet_of_valid hlen hv).2, hentries⟩
  · refine ⟨fun n => ⟨m n, payloadParam payload n⟩, fun n => ⟨hm n, rfl⟩, ?_, ?_⟩
    · rw [Host.decodePinConfig, if_neg (not_not.mpr hlen), rust_settings hm, foldl_update_all]
    · rw [hmodes] at hentries
      exact hentries
  · refine ⟨?_, ?_⟩
    · rw [Go.decodePinConfig, if_neg (not_not.mpr hlen), go_settings hm, foldl_update_all]
      rfl
    · rw [go_encode]
      exact hentries
  · refine ⟨fun n => ⟨m n, (payloadParam payload n).toNat⟩, fun n => ⟨hm n, rfl⟩, ?_, ?_⟩
    · rw [Python.decodePinConfig, if_neg (not_not.mpr hlen), python_settings hm, foldl_update_all]
      rfl
    · rw [hmodes] at hentries
      have hparams : ∀ n, (⟨m n, (payloadParam payload n).toNat⟩ : Python.PinSetting).param =
          (payloadParam payload n).toNat :=
        fun _ => rfl
      rw [python_encode hparams]
      exact congrArg Except.ok hentries

/-- The loops start with the length. -/
theorem firstFailing_checks (payload : List U8) (available : U32) : firstFailing (checks payload available) =
    if payload.length ≠ reportPayloadLen then (1, 0xFF)
    else firstFailing ((List.finRange gpioCount).flatMap (entryChecks payload available)) := by
  rw [checks, firstFailing_cons]
  simp only [decide_eq_false_iff_not]

theorem decodeSet_agrees (payload : List U8) (available : U32) :
    let decoded := Firmware.pinConfigDecodeSet payload available
    ((decoded.result, decoded.resultGpio) = firstFailing (checks payload available)) ∧
      decoded.requestId = recordedId payload := by
  by_cases hlen : payload.length ≠ reportPayloadLen
  · simp only [Firmware.pinConfigDecodeSet, firstFailing_checks, if_pos hlen]
    exact ⟨rfl, rfl⟩
  · simp only [Firmware.pinConfigDecodeSet, firstFailing_checks, if_neg hlen]
    exact ⟨firmware_entries payload available _ _, rfl⟩

theorem recordedId_eq (payload : List U8) : recordedId payload = payload.getD 2 0 := by
  rw [recordedId]
  split_ifs with h
  · rfl
  · rw [List.getD_eq_getElem?_getD, List.getElem?_eq_none (by omega)]
    rfl

/-- One validator, all or nothing: the firmware and the host libraries report the first failing check and
    record the same `request_id`; an accepted payload is its configuration, byte for byte; and a rejected
    one changes nothing in the engine but what it reports, the calls of the hardware included. -/
theorem sets_agree (payload : List U8) (available : U32) :
    let failing := firstFailing (checks payload available)
    let id := recordedId payload
    ((Firmware.pinConfigDecodeSet payload available).result = failing.1 ∧
      (Firmware.pinConfigDecodeSet payload available).resultGpio = failing.2 ∧
      (Firmware.pinConfigDecodeSet payload available).requestId = id) ∧
    Host.validatePinConfigPayload payload available = (⟨failing.1⟩, failing.2, id) ∧
    Go.validatePinConfigPayload payload available = (failing.1, failing.2, id) ∧
    Python.validatePinConfigPayload payload available.toNat = (failing.1.toNat, failing.2.toNat, id.toNat) ∧
    (failing.1 = 0 → RoundTrips payload available) ∧
    (failing.1 ≠ 0 → ∀ (e : Firmware.Engine) (nowUs : U64), e.info.available = available →
      e.setPinConfig payload nowUs =
        { e with result := failing.1, resultGpio := failing.2, requestId := id }) := by
  obtain ⟨hfailing, hid⟩ := decodeSet_agrees payload available
  obtain ⟨hresult, hgpio⟩ : (Firmware.pinConfigDecodeSet payload available).result = _ ∧
    (Firmware.pinConfigDecodeSet payload available).resultGpio = _ := Prod.ext_iff.mp hfailing
  refine ⟨⟨hresult, hgpio, hid⟩, ?_, ?_, ?_, ?_, ?_⟩
  · rw [Host.validatePinConfigPayload, firstFailing_checks, recordedId_eq]
    split_ifs with hlen
    · rfl
    · have h := Prod.ext_iff.mp (rust_entries payload available (List.finRange gpioCount))
      exact Prod.ext_iff.mpr ⟨congrArg Host.ResultCode.mk h.1, Prod.ext_iff.mpr ⟨h.2, rfl⟩⟩
  · by_cases hlen : payload.length ≠ reportPayloadLen
    · simp only [Go.validatePinConfigPayload, firstFailing_checks, if_pos hlen]
      rfl
    · simp only [Go.validatePinConfigPayload, firstFailing_checks, if_neg hlen]
      exact go_entries payload available _ _
  · have hpid : (if payload.length ≥ 3 then Python.item payload 2 else 0) = (recordedId payload).toNat := by
      rw [recordedId]
      split_ifs with h
      · rfl
      · rfl
    by_cases hlen : payload.length ≠ reportPayloadLen
    · simp only [Python.validatePinConfigPayload, firstFailing_checks, hpid, if_pos hlen]
      rfl
    · simp only [Python.validatePinConfigPayload, firstFailing_checks, hpid, if_neg hlen]
      exact python_entries payload available _ _
  · intro hok
    obtain ⟨hlen, hv⟩ := Firmware.decodeSet_result.mp (hresult.trans hok)
    exact roundTrips_of_valid hlen hv
  · rintro hbad e nowUs rfl
    have hinvalid := mt Firmware.decodeSet_result.mpr fun h => hbad (hresult.symm.trans h)
    rw [Firmware.Engine.setPinConfig, (Firmware.decodeSet_of_invalid hinvalid).2]
    simp only [Firmware.Engine.recordResult, hresult, hgpio, hid]

/-- Three inputs and an output, and its initial level. -/
def mixed (level : U8) : List U8 := [0, 0xFF, 9, 2, 20, 3, 5, 1, 0, 4, level] ++ List.replicate 52 0

/-- A configuration with inputs and an output, and one whose output level is none. -/
theorem sets_agree_samples : RoundTrips (mixed 1) 0x0F ∧
    (Firmware.Engine.blank (Firmware.Device.sampleInfo 0x0F)).setPinConfig (mixed 2) 7 =
      { Firmware.Engine.blank (Firmware.Device.sampleInfo 0x0F) with
        result := 5, resultGpio := 3, requestId := 9 } := by
  have hfailing : firstFailing (checks (mixed 2) 0x0F) = (5, 3) := by decide
  have hrejected := (sets_agree (mixed 2) 0x0F).2.2.2.2.2
  rw [hfailing, show recordedId (mixed 2) = 9 from rfl] at hrejected
  exact ⟨(sets_agree (mixed 1) 0x0F).2.2.2.2.1 (by decide),
    hrejected (by decide) (.blank (Firmware.Device.sampleInfo 0x0F)) 7 rfl⟩

end Hidpin.Codec
