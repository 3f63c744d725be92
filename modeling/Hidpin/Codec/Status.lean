import Hidpin.Firmware.Protocol
import Hidpin.Go.Protocol
import Hidpin.Python.Protocol

/-! Status reports on the wire: the firmware and the three host libraries write the same bytes, the
    decoders read them back, and what a decoder accepts is written back the same. -/

namespace Hidpin.Codec
open Host (StatusReport EdgeEvent byteAt u16At u32At u64At)

/-- A report as the firmware holds it. -/
def toFirmware (r : StatusReport) : Firmware.Status where
  seq := r.seq
  reason := r.reason
  flags := r.flags
  monitored := r.monitored
  outputs := r.outputs
  levels := r.levels
  timestampUs := r.timestampUs
  events := r.events.map fun e => ⟨e.gpio, e.level, e.ageUs⟩

/-- A report as the Python library holds it. -/
def toPython (r : StatusReport) : Python.StatusReport where
  seq := r.seq.toNat
  reason := r.reason.toNat
  flags := r.flags.toNat
  monitored := r.monitored.toNat
  outputs := r.outputs.toNat
  levels := r.levels.toNat
  timestampUs := r.timestampUs.toNat
  events := r.events.map fun e => ⟨e.gpio.toNat, e.level, e.ageUs.toNat⟩

/-! ### The bytes of a report -/

/-- The fields in front of the events. -/
def head (r : StatusReport) : List U8 :=
  Lib.toBytes 2 r.seq ++ [r.reason, r.flags, BitVec.ofNat 8 r.events.length, 0, 0, 0] ++
    Lib.toBytes 4 r.monitored ++ Lib.toBytes 4 r.outputs ++
      Lib.toBytes 4 r.levels ++ Lib.toBytes 8 r.timestampUs

theorem length_head (r : StatusReport) : (head r).length = 28 := rfl

/-- All the bytes, for a report that fits. -/
def wire (r : StatusReport) : List U8 :=
  head r ++ r.events.flatMap Host.encodeEvent ++ List.replicate (35 - 5 * r.events.length) 0

theorem length_encodeEvent (e : EdgeEvent) : (Host.encodeEvent e).length = 5 := rfl

theorem length_wire {r : StatusReport} (h : r.events.length ≤ 7) : (wire r).length = 63 := by
  rw [wire, List.length_append, List.length_append, length_head, List.length_replicate,
    Lib.length_flatMap length_encodeEvent]
  omega

theorem firmware_encode {r : StatusReport} (h : r.events.length ≤ 7) :
    Firmware.encodeStatus (toFirmware r) = wire r := by
  have htake : (toFirmware r).events.take Firmware.eventsPerReport = (toFirmware r).events :=
    List.take_of_length_le (by simpa [toFirmware] using h)
  have hlen : (toFirmware r).events.length = r.events.length := List.length_map _
  have hevents : (toFirmware r).events.flatMap Firmware.encodeEvent = r.events.flatMap Host.encodeEvent :=
    List.flatMap_map _ _ _
  have hrest : 5 * (Firmware.eventsPerReport - r.events.length) = 35 - 5 * r.events.length := by
    simp only [Firmware.eventsPerReport]; omega
  simp only [Firmware.encodeStatus, htake, hlen, hevents, hrest]
  rfl

/-- The fields in front of the events, written one after the other into a buffer of zeros. -/
theorem put_head (r : StatusReport) :
    Lib.put (Lib.put (Lib.put (Lib.put (Lib.put (Lib.put (Lib.put (Lib.put (List.replicate 63 0)
      0 (Lib.toBytes 2 r.seq)) 2 [r.reason]) 3 [r.flags]) 4 [BitVec.ofNat 8 r.events.length])
      8 (Lib.toBytes 4 r.monitored)) 12 (Lib.toBytes 4 r.outputs)) 16 (Lib.toBytes 4 r.levels))
      20 (Lib.toBytes 8 r.timestampUs) = head r ++ List.replicate 35 0 := by
  have hgap : List.replicate 58 (0 : U8) = [0, 0, 0] ++ List.replicate 55 0 := rfl
  rw [show List.replicate 63 (0 : U8) = [] ++ List.replicate 63 0 from rfl]
  simp (disch := simp) only [Lib.put_append, Lib.length_toBytes, List.length_singleton, Nat.reduceSub]
  rw [hgap, ← List.append_assoc]
  simp (disch := simp) only [Lib.put_append, Lib.length_toBytes, Nat.reduceSub]
  simp only [head, List.nil_append, List.append_assoc, List.cons_append]

theorem rust_encode {r : StatusReport} (h : r.events.length ≤ 7) : r.encode = .ok (wire r) := by
  rw [StatusReport.encode, if_neg (Nat.not_lt.mpr h)]
  simp only [put_head]
  rw [Lib.putEach_append length_encodeEvent _ rfl (by omega)]
  rfl

theorem go_encodeEvent : Go.encodeEvent = Host.encodeEvent := by
  funext e
  rw [Go.encodeEvent, Host.encodeEvent]
  cases e.level
  · simp
  · rfl

theorem go_encode_status {r : StatusReport} (h : r.events.length ≤ 7) :
    Go.encodeStatus r = .ok (wire r) := by
  rw [Go.encodeStatus, if_neg (Nat.not_lt.mpr h), go_encodeEvent]
  simp only [put_head]
  rw [show Go.statusEventLen = 5 from rfl, Lib.putEach_append length_encodeEvent _ rfl (by omega)]
  rfl

/-! ### Python's integers -/

theorem pack_toNat {k : ℕ} (v : BitVec (8 * k)) : Python.pack k v.toNat = .ok (Lib.toBytes k v) := by
  rw [Python.pack, if_pos v.isLt, BitVec.ofNat_toNat, BitVec.setWidth_eq]

theorem python_encodeEvent (e : EdgeEvent) :
    Python.encodeEvent ⟨e.gpio.toNat, e.level, e.ageUs.toNat⟩ = .ok (Host.encodeEvent e) := by
  have hpin : (e.gpio.toNat &&& 0x1F) ||| (if e.level then 0x80 else 0) =
      ((e.gpio &&& 0x1F) ||| (if e.level then 0x80 else 0)).toNat := by
    cases e.level
    · simp [BitVec.toNat_and]
    · simp [BitVec.toNat_and, BitVec.toNat_or]
  simp only [Python.encodeEvent, hpin]
  rw [pack_toNat (k := 1), pack_toNat (k := 4)]
  rfl

theorem python_putEvents : ∀ (es : List EdgeEvent) (i : ℕ) (p : List U8),
    Python.putEvents i (es.map fun e => ⟨e.gpio.toNat, e.level, e.ageUs.toNat⟩) p =
      .ok (Lib.putEach 28 5 Host.encodeEvent i es p)
  | [], _, _ => rfl
  | e :: es, i, p => by
    rw [List.map_cons, Python.putEvents, python_encodeEvent]
    exact python_putEvents es (i + 1) _

/-- The fields in front of the events, packed in two calls. -/
theorem pack_head (r : StatusReport) :
    Lib.put (Lib.put (List.replicate 63 0)
      0 (Lib.toBytes 2 r.seq ++ Lib.toBytes 1 r.reason ++ Lib.toBytes 1 r.flags ++
        Lib.toBytes 1 (BitVec.ofNat 8 r.events.length)))
      8 (Lib.toBytes 4 r.monitored ++ Lib.toBytes 4 r.outputs ++ Lib.toBytes 4 r.levels ++
        Lib.toBytes 8 r.timestampUs) = head r ++ List.replicate 35 0 := by
  have hbyte : ∀ b : U8, Lib.toBytes 1 b = [b] := fun b => by simp [Lib.toBytes]
  have hgap : List.replicate 58 (0 : U8) = [0, 0, 0] ++ List.replicate 55 0 := rfl
  rw [show List.replicate 63 (0 : U8) = [] ++ List.replicate 63 0 from rfl, hbyte, hbyte, hbyte]
  simp (disch := simp) only [Lib.put_append, List.length_append, Lib.length_toBytes, List.length_singleton,
    Nat.reduceAdd, Nat.reduceSub]
  rw [hgap, ← List.append_assoc]
  simp (disch := simp) only [Lib.put_append, List.length_append, Lib.length_toBytes, Nat.reduceAdd,
    Nat.reduceSub]
  simp only [head, List.nil_append, List.append_assoc, List.cons_append]

theorem python_encode_status {r : StatusReport} (h : r.events.length ≤ 7) :
    Python.encodeStatus (toPython r) = .ok (wire r) := by
  have hlen : (toPython r).events.length = r.events.length := List.length_map _
  have hcount : r.events.length = (BitVec.ofNat 8 r.events.length).toNat := by
    rw [BitVec.toNat_ofNat, Nat.mod_eq_of_lt (by omega)]
  rw [Python.encodeStatus, if_neg (by rw [hlen]; exact Nat.not_lt.mpr h), hlen, hcount]
  simp only [toPython]
  rw [pack_toNat (k := 2), pack_toNat (k := 1), pack_toNat (k := 1), pack_toNat (k := 1),
    pack_toNat (k := 4), pack_toNat (k := 4), pack_toNat (k := 4), pack_toNat (k := 8)]
  simp only [bind, Except.bind, python_putEvents]
  rw [pack_head, Lib.putEach_append length_encodeEvent _ rfl (by omega)]
  rfl

/-! ### Decoding -/

/-- The fields of a payload, as the decoders read them. -/
def fields (p : List U8) : StatusReport where
  seq := u16At p 0
  reason := byteAt p 2
  flags := byteAt p 3
  monitored := u32At p 8
  outputs := u32At p 12
  levels := u32At p 16
  timestampUs := u64At p 20
  events := (List.range (byteAt p 4).toNat).map (Host.decodeEvent p)

/-- A payload the decoders accept. -/
def Decodable (p : List U8) : Prop := p.length = 63 ∧ (byteAt p 4).toNat ≤ 7

theorem rust_decode {p : List U8} (h : Decodable p) : Host.decodeStatus p = .ok (fields p) := by
  rw [Host.decodeStatus, if_neg (not_not.mpr h.1)]
  exact if_neg (Nat.not_lt.mpr h.2)

theorem go_decode {p : List U8} (h : Decodable p) : Go.decodeStatus p = .ok (fields p) := by
  rw [Go.decodeStatus, if_neg (not_not.mpr h.1)]
  exact if_neg (Nat.not_lt.mpr h.2)

theorem unpack_byte {p : List U8} {pos : ℕ} (h : pos < p.length) :
    Python.unpack 1 p pos = (byteAt p pos).toNat := by
  rw [Python.unpack, Lib.slice_one h]
  simp [Lib.ofBytes, byteAt]

theorem python_decodeEvent {p : List U8} (h : Decodable p) {i : ℕ} (hi : i < 7) : Python.decodeEvent p i =
    ⟨(Host.decodeEvent p i).gpio.toNat, (Host.decodeEvent p i).level,
      (Host.decodeEvent p i).ageUs.toNat⟩ := by
  have hpos : 28 + 5 * i < p.length := by rw [h.1]; omega
  have hlevel : decide ((byteAt p (28 + 5 * i)).toNat &&& 0x80 ≠ 0) =
      decide (byteAt p (28 + 5 * i) &&& 0x80 ≠ 0) := by
    rw [Bool.eq_iff_iff, decide_eq_true_iff, decide_eq_true_iff, Ne, Ne, ← BitVec.toNat_inj,
      BitVec.toNat_and]
    rfl
  simp only [Python.decodeEvent, unpack_byte hpos, hlevel, Host.decodeEvent, BitVec.toNat_and]
  rfl

theorem python_decode {p : List U8} (h : Decodable p) :
    Python.decodeStatus p = .ok (toPython (fields p)) := by
  have hlen : p.length = 63 := h.1
  have hevents : (List.range (byteAt p 4).toNat).map (Python.decodeEvent p) =
      (toPython (fields p)).events := by
    rw [toPython, fields, List.map_map]
    refine List.map_congr_left fun i hi => ?_
    exact python_decodeEvent h (Nat.lt_of_lt_of_le (List.mem_range.mp hi) h.2)
  rw [Python.decodeStatus, if_neg (not_not.mpr h.1)]
  simp only [unpack_byte (show 2 < p.length by omega), unpack_byte (show 3 < p.length by omega),
    unpack_byte (show 4 < p.length by omega), if_neg (Nat.not_lt.mpr h.2), hevents]
  rfl

theorem decoders_fail {p : List U8} (h : ¬ Decodable p) : (∃ e, Host.decodeStatus p = .error e) ∧
    (∃ e, Go.decodeStatus p = .error e) ∧ (∃ e, Python.decodeStatus p = .error e) := by
  by_cases hlen : p.length ≠ 63
  · exact ⟨⟨_, if_pos hlen⟩, ⟨_, if_pos hlen⟩, ⟨_, if_pos hlen⟩⟩
  · have hcount : (byteAt p 4).toNat > 7 := Nat.not_le.mp fun hle => h ⟨not_not.mp hlen, hle⟩
    have hunpack : Python.unpack 1 p 4 > 7 := by
      rw [unpack_byte (by rw [not_not.mp hlen]; decide)]
      exact hcount
    exact ⟨⟨_, (if_neg hlen).trans (if_pos hcount)⟩, ⟨_, (if_neg hlen).trans (if_pos hcount)⟩,
      ⟨_, (if_neg hlen).trans (if_pos hunpack)⟩⟩

/-- The decoders accept and refuse the same payloads. -/
theorem decoders_fail_iff (p : List U8) :
    ((∃ e, Host.decodeStatus p = .error e) ↔ p.length ≠ 63 ∨ (byteAt p 4).toNat > 7) ∧
    ((∃ e, Go.decodeStatus p = .error e) ↔ p.length ≠ 63 ∨ (byteAt p 4).toNat > 7) ∧
    ((∃ e, Python.decodeStatus p = .error e) ↔ p.length ≠ 63 ∨ (byteAt p 4).toNat > 7) := by
  have hiff : ¬ Decodable p ↔ p.length ≠ 63 ∨ (byteAt p 4).toNat > 7 := by
    rw [Decodable, not_and_or, Nat.not_le]
  rw [← hiff]
  by_cases h : Decodable p
  · rw [rust_decode h, go_decode h, python_decode h]
    simp [h]
  · obtain ⟨hrust, hgo, hpython⟩ := decoders_fail h
    simp only [h, hrust, hgo, hpython, not_false_eq_true, and_self]

/-! ### Round trips -/

/-- An event, from its five bytes. -/
def eventOf (b : List U8) : EdgeEvent :=
  ⟨b.getD 0 0 &&& 0x1F, decide (b.getD 0 0 &&& 0x80 ≠ 0), Lib.ofBytes 32 (b.drop 1)⟩

theorem decodeEvent_eq (p : List U8) (i : ℕ) :
    Host.decodeEvent p i = eventOf (Lib.slice p (28 + 5 * i) 5) := by
  rw [eventOf, Lib.getD_slice (by decide), Lib.drop_slice p (28 + 5 * i) 4 1]
  rfl

theorem eventOf_encodeEvent {e : EdgeEvent} (h : e.gpio.toNat < 32) : eventOf (Host.encodeEvent e) = e := by
  have hpin : ∀ b : U8, b.toNat < 32 → ∀ level : Bool,
      ((b &&& 0x1F) ||| (if level then 0x80 else 0)) &&& 0x1F = b ∧
        decide (((b &&& 0x1F) ||| (if level then 0x80 else 0)) &&& 0x80 ≠ 0) = level := by decide
  obtain ⟨hgpio, hlevel⟩ := hpin e.gpio h e.level
  have hage : Lib.ofBytes 32 (Lib.toBytes 4 e.ageUs) = e.ageUs := Lib.ofBytes_toBytes _ (by decide)
  simp only [eventOf, Host.encodeEvent, List.getD_cons_zero, List.drop_one, List.tail_cons,
    hgpio, hlevel, hage]

theorem slice_wire {r : StatusReport} {i : ℕ} (hi : i < r.events.length) :
    Lib.slice (wire r) (28 + 5 * i) 5 = Host.encodeEvent r.events[i] := by
  rw [wire, List.append_assoc, Lib.slice_right (length_head r),
    Lib.slice_left (by rw [Lib.length_flatMap length_encodeEvent]; omega),
    Lib.slice_flatMap length_encodeEvent _ hi]

/-- What the encoders write, the decoders read. -/
theorem fields_wire {r : StatusReport} (hcount : r.events.length ≤ 7)
    (hgpio : ∀ e ∈ r.events, e.gpio.toNat < 32) : fields (wire r) = r := by
  have hlen : (BitVec.ofNat 8 r.events.length).toNat = r.events.length := by
    rw [BitVec.toNat_ofNat, Nat.mod_eq_of_lt (by omega)]
  have hevents : (List.range (byteAt (wire r) 4).toNat).map (Host.decodeEvent (wire r)) = r.events := by
    rw [show byteAt (wire r) 4 = BitVec.ofNat 8 r.events.length from rfl, hlen]
    refine List.ext_getElem (by simp) fun i _ hi => ?_
    rw [List.getElem_map, List.getElem_range, decodeEvent_eq, slice_wire hi,
      eventOf_encodeEvent (hgpio _ (List.getElem_mem hi))]
  rw [fields, hevents]
  have hseq : u16At (wire r) 0 = r.seq := Lib.ofBytes_toBytes (k := 2) r.seq (by decide)
  have hmonitored : u32At (wire r) 8 = r.monitored := Lib.ofBytes_toBytes (k := 4) r.monitored (by decide)
  have houtputs : u32At (wire r) 12 = r.outputs := Lib.ofBytes_toBytes (k := 4) r.outputs (by decide)
  have hlevels : u32At (wire r) 16 = r.levels := Lib.ofBytes_toBytes (k := 4) r.levels (by decide)
  have htimestamp : u64At (wire r) 20 = r.timestampUs :=
    Lib.ofBytes_toBytes (k := 8) r.timestampUs (by decide)
  rw [hseq, hmonitored, houtputs, hlevels, htimestamp]
  rfl

/-- A payload without stray bits: what is reserved or not used is 0. -/
structure Canonical (p : List U8) : Prop where
  decodable : Decodable p
  reserved : byteAt p 5 = 0 ∧ byteAt p 6 = 0 ∧ byteAt p 7 = 0
  bits : ∀ i < (byteAt p 4).toNat, byteAt p (28 + 5 * i) &&& 0x60 = 0
  unused : ∀ j, 28 + 5 * (byteAt p 4).toNat ≤ j → j < 63 → byteAt p j = 0

theorem encodeEvent_eventOf {b : List U8} (hlen : b.length = 5) (hbits : b.getD 0 0 &&& 0x60 = 0) :
    Host.encodeEvent (eventOf b) = b := by
  have hpin : ∀ x : U8, x &&& 0x60 = 0 →
      ((x &&& 0x1F) &&& 0x1F) ||| (if decide (x &&& 0x80 ≠ 0) then 0x80 else 0) = x := by decide
  rcases b with _ | ⟨x, rest⟩
  · exact absurd hlen (by decide)
  · have hrest : rest.length = 4 := Nat.succ.inj hlen
    have hage : Lib.toBytes 4 (Lib.ofBytes 32 rest) = rest := by
      rw [← hrest, Lib.toBytes_ofBytes rest (by omega)]
    simp only [Host.encodeEvent, eventOf, List.getD_cons_zero, List.drop_one, List.tail_cons, hage]
    rw [hpin x hbits]

/-- A word is written back as the bytes it was read from. -/
theorem toBytes_slice {w : ℕ} {p : List U8} {pos k : ℕ} (hp : pos + k ≤ p.length) (hw : 8 * k ≤ w) :
    Lib.toBytes k (Lib.ofBytes w (Lib.slice p pos k)) = Lib.slice p pos k := by
  have hlen := Lib.length_slice hp
  have h := Lib.toBytes_ofBytes (w := w) (Lib.slice p pos k) (by rw [hlen]; exact hw)
  rwa [hlen] at h

/-- The head of the fields is the head of the payload. -/
theorem head_fields {p : List U8} (h : Canonical p) : head (fields p) = Lib.slice p 0 28 := by
  have hlen : p.length = 63 := h.decodable.1
  have hcount : BitVec.ofNat 8 (fields p).events.length = byteAt p 4 := by
    rw [fields, List.length_map, List.length_range, BitVec.ofNat_toNat, BitVec.setWidth_eq]
  have hbytes : [byteAt p 2, byteAt p 3, byteAt p 4, 0, 0, 0] = Lib.slice p 2 6 := by
    rw [← Lib.slice_append p 2 1 5, ← Lib.slice_append p (2 + 1) 1 4, ← Lib.slice_append p (2 + 1 + 1) 1 3,
      Lib.slice_one (by omega), Lib.slice_one (by omega), Lib.slice_one (by omega),
      Lib.slice_eq_replicate (by omega) fun i h5 h8 => ?_]
    · rfl
    · have hi : i = 5 ∨ i = 6 ∨ i = 7 := by omega
      rcases hi with rfl | rfl | rfl
      · exact h.reserved.1
      · exact h.reserved.2.1
      · exact h.reserved.2.2
  have hseq : Lib.toBytes 2 (fields p).seq = Lib.slice p 0 2 := toBytes_slice (by omega) (by decide)
  have hmonitored : Lib.toBytes 4 (fields p).monitored = Lib.slice p 8 4 :=
    toBytes_slice (by omega) (by decide)
  have houtputs : Lib.toBytes 4 (fields p).outputs = Lib.slice p 12 4 := toBytes_slice (by omega) (by decide)
  have hlevels : Lib.toBytes 4 (fields p).levels = Lib.slice p 16 4 := toBytes_slice (by omega) (by decide)
  have htimestamp : Lib.toBytes 8 (fields p).timestampUs = Lib.slice p 20 8 :=
    toBytes_slice (by omega) (by decide)
  rw [head, hcount, hseq, hmonitored, houtputs, hlevels, htimestamp,
    show [(fields p).reason, (fields p).flags, byteAt p 4, 0, 0, 0] = Lib.slice p 2 6 from hbytes,
    Lib.slice_append p 0, Lib.slice_append p 0, Lib.slice_append p 0, Lib.slice_append p 0,
    Lib.slice_append p 0]

/-- What the decoders read without stray bits, the encoders write back. -/
theorem wire_fields {p : List U8} (h : Canonical p) : wire (fields p) = p := by
  obtain ⟨hlen, hcount⟩ := h.decodable
  have hlength : (fields p).events.length = (byteAt p 4).toNat := by
    rw [fields, List.length_map, List.length_range]
  have hevent : ∀ i ∈ List.range (byteAt p 4).toNat,
      Host.encodeEvent (Host.decodeEvent p i) = Lib.slice p (28 + 5 * i) 5 := by
    intro i hi
    have hi : i < (byteAt p 4).toNat := List.mem_range.mp hi
    rw [decodeEvent_eq, encodeEvent_eventOf (Lib.length_slice (by omega))]
    rw [Lib.getD_slice (by decide)]
    exact h.bits i hi
  have hevents : (fields p).events.flatMap Host.encodeEvent = Lib.slice p 28 (5 * (byteAt p 4).toNat) := by
    rw [fields, List.flatMap_map, List.flatMap_congr hevent, Lib.flatMap_slice]
  have hrest : List.replicate (35 - 5 * (byteAt p 4).toNat) 0 =
      Lib.slice p (0 + (28 + 5 * (byteAt p 4).toNat)) (35 - 5 * (byteAt p 4).toNat) :=
    (Lib.slice_eq_replicate (by omega) fun i hge hlt => h.unused i (by omega) (by omega)).symm
  rw [wire, head_fields h, hevents, hlength, Lib.slice_append p 0 28, hrest, Lib.slice_append p 0,
    Lib.slice_all (by omega)]

/-- The four codecs of status reports are one: they write the same bytes and read the report back; a
    payload without stray bits is read and written back the same; and the decoders refuse exactly the
    payloads of another length or with more than 7 events. -/
theorem status_codecs :
    (∀ r : StatusReport, r.events.length ≤ 7 → (∀ e ∈ r.events, e.gpio.toNat < 32) →
      let p := Firmware.encodeStatus (toFirmware r)
      p.length = 63 ∧ r.encode = .ok p ∧ Go.encodeStatus r = .ok p ∧
        Python.encodeStatus (toPython r) = .ok p ∧
        Host.decodeStatus p = .ok r ∧ Go.decodeStatus p = .ok r ∧ Python.decodeStatus p = .ok (toPython r)) ∧
    (∀ p, Canonical p → ∃ r, Host.decodeStatus p = .ok r ∧ Go.decodeStatus p = .ok r ∧
      Python.decodeStatus p = .ok (toPython r) ∧ Firmware.encodeStatus (toFirmware r) = p ∧
        r.encode = .ok p ∧ Go.encodeStatus r = .ok p ∧ Python.encodeStatus (toPython r) = .ok p) ∧
    ∀ p, ((∃ e, Host.decodeStatus p = .error e) ↔ p.length ≠ 63 ∨ (byteAt p 4).toNat > 7) ∧
      ((∃ e, Go.decodeStatus p = .error e) ↔ p.length ≠ 63 ∨ (byteAt p 4).toNat > 7) ∧
      ((∃ e, Python.decodeStatus p = .error e) ↔ p.length ≠ 63 ∨ (byteAt p 4).toNat > 7) := by
  refine ⟨fun r hcount hgpio => ?_, fun p h => ?_, decoders_fail_iff⟩
  · have hdecodable : Decodable (wire r) := by
      refine ⟨length_wire hcount, ?_⟩
      rw [show byteAt (wire r) 4 = BitVec.ofNat 8 r.events.length from rfl, BitVec.toNat_ofNat,
        Nat.mod_eq_of_lt (by omega)]
      exact hcount
    have hfields := fields_wire hcount hgpio
    rw [firmware_encode hcount]
    refine ⟨length_wire hcount, rust_encode hcount, go_encode_status hcount, python_encode_status hcount,
      (rust_decode hdecodable).trans ?_, (go_decode hdecodable).trans ?_,
      (python_decode hdecodable).trans ?_⟩
    · rw [hfields]
    · rw [hfields]
    · rw [hfields]
  · have hcount : (fields p).events.length ≤ 7 := by
      rw [fields, List.length_map, List.length_range]
      exact h.decodable.2
    refine ⟨fields p, rust_decode h.decodable, go_decode h.decodable, python_decode h.decodable,
      (firmware_encode hcount).trans ?_, (rust_encode hcount).trans ?_, (go_encode_status hcount).trans ?_,
      (python_encode_status hcount).trans ?_⟩
    · rw [wire_fields h]
    · rw [wire_fields h]
    · rw [wire_fields h]
    · rw [wire_fields h]

/-- A report of three inputs and an output, with three events of which the last one's age is saturated. -/
def sampleReport : StatusReport :=
  ⟨0xFFFF, 0x81, 1, 7, 8, 0xA, 5000, [⟨1, true, 20⟩, ⟨2, false, 15⟩, ⟨0, false, 0xFFFFFFFF⟩]⟩

/-- Its payload. -/
def samplePayload : List U8 :=
  [0xFF, 0xFF, 0x81, 1, 3, 0, 0, 0, 7, 0, 0, 0, 8, 0, 0, 0, 10, 0, 0, 0, 0x88, 0x13, 0, 0, 0, 0, 0, 0,
    0x81, 20, 0, 0, 0, 0x02, 15, 0, 0, 0, 0x00, 0xFF, 0xFF, 0xFF, 0xFF] ++ List.replicate 20 0

theorem status_codecs_samples :
    Host.decodeStatus (Firmware.encodeStatus (toFirmware sampleReport)) = .ok sampleReport ∧
    ∃ r, Host.decodeStatus samplePayload = .ok r ∧ r.encode = .ok samplePayload := by
  have hunused : ∀ j < 63, 43 ≤ j → byteAt samplePayload j = 0 := by decide
  have hcanonical : Canonical samplePayload :=
    ⟨⟨rfl, by decide⟩, by decide, by decide, fun j hfirst hlast => hunused j hlast hfirst⟩
  obtain ⟨_, _, _, _, hrust, _⟩ := status_codecs.1 sampleReport (by decide) (by decide)
  obtain ⟨r, hdecode, _, _, _, hencode, _⟩ := status_codecs.2.1 samplePayload hcanonical
  exact ⟨hrust, r, hdecode, hencode⟩

end Hidpin.Codec
