import Mathlib.Data.List.GetD
import Mathlib.Data.List.TakeWhile
import Hidpin.Codec.Status

/-! Device information on the wire: the decoders of the three host libraries agree on every payload, their
    encoders write the same bytes, and what they and the firmware write is read back. -/

namespace Hidpin.Codec
open Host (DeviceInfo byteAt u16At u32At)

/-- The information as the Go library holds it, the name as its UTF-8 bytes. -/
def goInfo (i : DeviceInfo) : Go.DeviceInfo where
  protocolVersion := i.protocolVersion
  firmware := i.firmware
  board := i.board
  gpioCount := i.gpioCount
  periodicIntervalMs := i.periodicIntervalMs
  available := i.available
  eventsPerReport := i.eventsPerReport
  eventQueueSize := i.eventQueueSize
  chip := i.chip
  chipRevision := i.chipRevision
  quirks := i.quirks
  sdkBoard := Host.utf8 i.sdkBoard

/-- The information as the Python library holds it. -/
def pythonInfo (i : DeviceInfo) : Python.DeviceInfo where
  protocolVersion := i.protocolVersion.toNat
  firmware := (i.firmware.1.toNat, i.firmware.2.1.toNat, i.firmware.2.2.toNat)
  board := i.board.toNat
  gpioCount := i.gpioCount.toNat
  periodicIntervalMs := i.periodicIntervalMs.toNat
  available := i.available.toNat
  eventsPerReport := i.eventsPerReport.toNat
  eventQueueSize := i.eventQueueSize.toNat
  chip := i.chip.toNat
  chipRevision := i.chipRevision.toNat
  quirks := i.quirks.toNat
  sdkBoard := i.sdkBoard

/-! ### Names -/

/-- The character of a byte of a name. -/
def asciiChar (b : U8) : Char := if b.toNat < 128 then Char.ofNat b.toNat else Char.ofNat 0xFFFD

/-- The name a payload carries: the bytes before the first 0, at most 40. -/
def nameBytes (p : List U8) : List U8 := (Lib.slice p 17 40).takeWhile (· ≠ 0)

theorem utf8_asciiChar : ∀ b : U8, Host.utf8 [asciiChar b] = if b < 0x80 then [b] else Go.runeError := by
  decide +kernel

theorem utf8_append (s t : List Char) : Host.utf8 (s ++ t) = Host.utf8 s ++ Host.utf8 t := by
  simp [Host.utf8]

/-- The Go string of a name holds the characters that the other libraries give. -/
theorem asciiString_eq : ∀ b : List U8, Go.asciiString b = Host.utf8 (b.map asciiChar)
  | [] => rfl
  | c :: b => by
    have hcons : Host.utf8 ((c :: b).map asciiChar) = Host.utf8 [asciiChar c] ++
        Host.utf8 (b.map asciiChar) :=
      utf8_append [asciiChar c] _
    rw [hcons, ← asciiString_eq b, utf8_asciiChar]
    rfl

/-- Cutting a name at the index of its first 0. -/
theorem take_idxOf : ∀ b : List U8, (match b.idxOf? 0 with | some i => b.take i | none => b) =
    b.takeWhile (· ≠ 0)
  | [] => rfl
  | c :: b => by
    have ih := take_idxOf b
    rw [List.idxOf?_cons]
    by_cases hc : c = 0#8
    · simp [hc]
    · rw [List.takeWhile_cons_of_pos (by simpa using hc), ← ih]
      cases b.idxOf? 0 <;> simp [hc]

/-- The characters of a name that any board can have. -/
def Ascii (name : List Char) : Prop := ∀ c ∈ name, c.toNat < 128 ∧ c ≠ Char.ofNat 0

theorem utf8_ascii {name : List Char} (h : Ascii name) :
    Host.utf8 name = name.map fun c => BitVec.ofNat 8 c.toNat := by
  induction name with
  | nil => rfl
  | cons c name ih =>
    have hsmall : c.val.toNat ≤ 0x7f := by
      have := (h c List.mem_cons_self).1
      rw [Char.toNat] at this
      omega
    have henc : String.utf8EncodeChar c = [UInt8.ofNat c.toNat] := if_pos hsmall
    have hone : Host.utf8 [c] = [BitVec.ofNat 8 c.toNat] := by
      simp only [Host.utf8, List.flatMap_singleton, henc]
      rfl
    have hcons : Host.utf8 (c :: name) = Host.utf8 [c] ++ Host.utf8 name := utf8_append [c] name
    rw [hcons, hone, ih fun c' hc' => h c' (List.mem_cons_of_mem c hc')]
    rfl

/-! ### The bytes -/

/-- The fields in front of the name. -/
def infoHead (i : DeviceInfo) : List U8 :=
  [i.protocolVersion, i.firmware.1, i.firmware.2.1, i.firmware.2.2, i.board, i.gpioCount] ++
    Lib.toBytes 2 i.periodicIntervalMs ++ Lib.toBytes 4 i.available ++
    [i.eventsPerReport, i.eventQueueSize, i.chip, i.chipRevision, i.quirks]

theorem length_infoHead (i : DeviceInfo) : (infoHead i).length = 17 := rfl

/-- All the bytes, with the bytes of the name. -/
def infoWire (i : DeviceInfo) (name : List U8) : List U8 :=
  infoHead i ++ name ++ List.replicate (46 - name.length) 0

theorem length_infoWire (i : DeviceInfo) {name : List U8} (h : name.length ≤ 46) :
    (infoWire i name).length = 63 := by
  rw [infoWire, List.length_append, List.length_append, length_infoHead, List.length_replicate]
  omega

/-- The Rust and the Go encoder cut a long name. -/
theorem rust_encode_info (i : DeviceInfo) : i.encode = infoWire i ((Host.utf8 i.sdkBoard).take 40) := by
  rw [DeviceInfo.encode, show List.replicate Host.reportPayloadLen (0 : U8) = [] ++
    List.replicate 63 0 from rfl]
  simp (disch := simp) only [Lib.put_append, Lib.length_toBytes, List.length_cons, List.length_nil,
    Nat.reduceAdd, Nat.reduceSub]
  simp only [infoWire, infoHead, List.nil_append, List.append_assoc, List.cons_append]

theorem go_encode_info (i : DeviceInfo) : (goInfo i).encode = i.encode := rfl

/-- The Python encoder packs the fields in four calls. -/
theorem python_encode_info {i : DeviceInfo} (hascii : Ascii i.sdkBoard) (hlen : i.sdkBoard.length ≤ 40) :
    Python.encodeDeviceInfo (pythonInfo i) = .ok (infoWire i (Host.utf8 i.sdkBoard)) := by
  have hname : Python.encodeAscii i.sdkBoard = .ok (Host.utf8 i.sdkBoard) := by
    rw [Python.encodeAscii, if_pos (List.all_eq_true.mpr fun c hc => decide_eq_true (hascii c hc).1),
      utf8_ascii hascii]
  have hshort : ¬ (Host.utf8 i.sdkBoard).length > 40 := by
    rw [utf8_ascii hascii, List.length_map]
    omega
  have hbyte : ∀ b : U8, Lib.toBytes 1 b = [b] := fun b => by simp [Lib.toBytes]
  have hpack : ∀ b : U8, Python.pack 1 b.toNat = .ok [b] :=
    fun b => (pack_toNat (k := 1) b).trans (by rw [hbyte])
  have hpack2 : ∀ v : U16, Python.pack 2 v.toNat = .ok (Lib.toBytes 2 v) := fun v => pack_toNat (k := 2) v
  have hpack4 : ∀ v : U32, Python.pack 4 v.toNat = .ok (Lib.toBytes 4 v) := fun v => pack_toNat (k := 4) v
  simp only [Python.encodeDeviceInfo, pythonInfo, hpack, hpack2, hpack4, hname, bind, Except.bind,
    if_neg hshort]
  rw [show List.replicate Host.reportPayloadLen (0 : U8) = [] ++ List.replicate 63 0 from rfl]
  simp (disch := simp) only [Lib.put_append, Lib.length_toBytes, List.length_append, List.length_singleton,
    Nat.reduceAdd, Nat.reduceSub]
  simp only [infoWire, infoHead, List.nil_append, List.append_assoc, List.cons_append]

/-! ### The fields of a payload -/

/-- What the decoders read from a payload of the right length. -/
def infoFields (p : List U8) : DeviceInfo where
  protocolVersion := byteAt p 0
  firmware := (byteAt p 1, byteAt p 2, byteAt p 3)
  board := byteAt p 4
  gpioCount := byteAt p 5
  periodicIntervalMs := u16At p 6
  available := u32At p 8
  eventsPerReport := byteAt p 12
  eventQueueSize := byteAt p 13
  chip := byteAt p 14
  chipRevision := byteAt p 15
  quirks := byteAt p 16
  sdkBoard := (nameBytes p).map asciiChar

section Decoders
variable {p : List U8} (h : p.length = 63)
include h

theorem rust_decode_info : Host.decodeDeviceInfo p = .ok (infoFields p) := if_neg (not_not.mpr h)

theorem go_decode_info : Go.decodeDeviceInfo p = .ok (goInfo (infoFields p)) := by
  have hname := take_idxOf (Lib.slice p Host.sdkBoardOffset Host.sdkBoardLen)
  rw [Go.decodeDeviceInfo, if_neg (not_not.mpr h)]
  refine congrArg Except.ok ?_
  have hboard : Go.asciiString (nameBytes p) = (goInfo (infoFields p)).sdkBoard := asciiString_eq _
  rw [nameBytes, show Lib.slice p 17 40 = Lib.slice p Host.sdkBoardOffset Host.sdkBoardLen from rfl,
    ← hname] at hboard
  exact congrArg (fun name => { goInfo (infoFields p) with sdkBoard := name }) hboard

theorem python_decode_info : Python.decodeDeviceInfo p = .ok (pythonInfo (infoFields p)) := by
  have hbyte : ∀ pos < 17, Python.unpack 1 p pos = (byteAt p pos).toNat :=
    fun pos hpos => unpack_byte (by omega)
  rw [Python.decodeDeviceInfo, if_neg (not_not.mpr h)]
  simp (disch := omega) only [hbyte]
  rfl

end Decoders

/-- A name without 0 that fits is what the payload carries. -/
theorem nameBytes_infoWire (i : DeviceInfo) {name : List U8} (hlen : name.length ≤ 40)
    (hzero : ∀ b ∈ name, b ≠ 0) : nameBytes (infoWire i name) = name := by
  have hslice : Lib.slice (infoWire i name) 17 40 = name ++ List.replicate (40 - name.length) 0 := by
    rw [infoWire, List.append_assoc, show 17 = 17 + 0 from rfl, Lib.slice_right (length_infoHead i),
      Lib.slice, List.drop_zero,
      List.take_append, List.take_of_length_le hlen, List.take_replicate, min_eq_left (by omega)]
  rw [nameBytes, hslice, List.takeWhile_append_of_pos fun b hb => by simpa using hzero b hb]
  cases 40 - name.length <;> simp [List.replicate_succ]

/-- What an encoder wrote is read back, but for the name, of which the bytes are. -/
theorem infoFields_infoWire (i : DeviceInfo) {name : List U8} (hlen : name.length ≤ 40)
    (hzero : ∀ b ∈ name, b ≠ 0) :
    infoFields (infoWire i name) = { i with sdkBoard := name.map asciiChar } := by
  have hinterval : u16At (infoWire i name) 6 = i.periodicIntervalMs :=
    Lib.ofBytes_toBytes (k := 2) i.periodicIntervalMs (by decide)
  have havailable : u32At (infoWire i name) 8 = i.available :=
    Lib.ofBytes_toBytes (k := 4) i.available (by decide)
  rw [infoFields, nameBytes_infoWire i hlen hzero, hinterval, havailable]
  rfl

theorem asciiChar_ofNat {c : Char} (h : c.toNat < 128) : asciiChar (BitVec.ofNat 8 c.toNat) = c := by
  have hnat : (BitVec.ofNat 8 c.toNat).toNat = c.toNat := by
    rw [BitVec.toNat_ofNat, Nat.mod_eq_of_lt (by omega)]
  rw [asciiChar, hnat, if_pos h, Char.ofNat_toNat]

theorem ascii_name {name : List Char} (h : Ascii name) :
    (∀ b ∈ Host.utf8 name, b ≠ 0) ∧ (Host.utf8 name).map asciiChar = name := by
  rw [utf8_ascii h]
  constructor
  · intro b hb hzero
    obtain ⟨c, hc, rfl⟩ := List.mem_map.mp hb
    have hchar := asciiChar_ofNat (h c hc).1
    rw [hzero] at hchar
    exact (h c hc).2 hchar.symm
  · rw [List.map_map]
    exact (List.map_congr_left fun c hc => asciiChar_ofNat (h c hc).1).trans (List.map_id name)

/-! ### The firmware -/

/-- The information of a board as the host holds it, with the values the firmware fills in. -/
def hostInfo (info : Firmware.DeviceInfo) : DeviceInfo where
  protocolVersion := 1
  firmware := (info.fwMajor, info.fwMinor, info.fwPatch)
  board := info.board
  gpioCount := 30
  periodicIntervalMs := 1000
  available := info.available
  eventsPerReport := 7
  eventQueueSize := 32
  chip := info.chip
  chipRevision := info.chipRevision
  quirks := info.quirks
  sdkBoard := ((info.sdkBoard.getD []).take 40).map asciiChar

/-- A C string of ASCII characters, or the null pointer. -/
def AsciiString (name : Option (List U8)) : Prop := ∀ b ∈ name.getD [], b.toNat < 128 ∧ b ≠ 0

theorem firmware_encode_info {info : Firmware.DeviceInfo} (h : AsciiString info.sdkBoard) :
    Firmware.encodeDeviceInfo info = infoWire (hostInfo info) ((info.sdkBoard.getD []).take 40) := by
  have hname : ((info.sdkBoard.getD []).take 40).takeWhile (· ≠ 0) = (info.sdkBoard.getD []).take 40 :=
    List.takeWhile_eq_self_iff.mpr fun b hb => by simpa using (h b (List.mem_of_mem_take hb)).2
  rw [Firmware.encodeDeviceInfo]
  simp only [hname]
  rfl

theorem zero_behind_name (i : DeviceInfo) {name : List U8} {j : ℕ} (hj : 17 + name.length ≤ j) :
    byteAt (infoWire i name) j = 0 := by
  have hlen : (infoHead i ++ name).length ≤ j := by
    rw [List.length_append, length_infoHead]
    exact hj
  rw [byteAt, infoWire, List.getD_append_right _ _ _ _ hlen, List.getD_eq_getElem?_getD,
    List.getElem?_replicate]
  split <;> rfl

/-- The codecs of device information are one. The three decoders read the same fields from every payload, the
    name being the bytes before the first 0, with U+FFFD for those outside ASCII. The three encoders write
    the same bytes for a name of ASCII that fits, and they are read back. What the firmware writes is read as
    its fields and the first 40 characters of its name, with zeros behind. -/
theorem info_codecs :
    (∀ p : List U8, p.length = 63 → ∃ i : DeviceInfo, Host.decodeDeviceInfo p = .ok i ∧
      Go.decodeDeviceInfo p = .ok (goInfo i) ∧ Python.decodeDeviceInfo p = .ok (pythonInfo i) ∧
      i.sdkBoard = ((Lib.slice p 17 40).takeWhile (· ≠ 0)).map fun b =>
        if b.toNat < 128 then Char.ofNat b.toNat else Char.ofNat 0xFFFD) ∧
    (∀ i : DeviceInfo, Ascii i.sdkBoard → i.sdkBoard.length ≤ 40 →
      let p := i.encode
      p.length = 63 ∧ (goInfo i).encode = p ∧ Python.encodeDeviceInfo (pythonInfo i) = .ok p ∧
        Host.decodeDeviceInfo p = .ok i ∧ Go.decodeDeviceInfo p = .ok (goInfo i) ∧
          Python.decodeDeviceInfo p = .ok (pythonInfo i)) ∧
    ∀ info : Firmware.DeviceInfo, AsciiString info.sdkBoard →
      let p := Firmware.encodeDeviceInfo info
      p.length = 63 ∧ Host.decodeDeviceInfo p = .ok (hostInfo info) ∧
        Go.decodeDeviceInfo p = .ok (goInfo (hostInfo info)) ∧
          Python.decodeDeviceInfo p = .ok (pythonInfo (hostInfo info)) ∧
            ∀ j, 17 + ((info.sdkBoard.getD []).take 40).length ≤ j → j < 63 → byteAt p j = 0 := by
  refine ⟨fun p h => ⟨infoFields p, rust_decode_info h, go_decode_info h, python_decode_info h, rfl⟩,
    fun i hascii hlen => ?_, fun info hascii => ?_⟩
  · obtain ⟨hzero, hname⟩ := ascii_name hascii
    have hshort : (Host.utf8 i.sdkBoard).length ≤ 40 := by
      rw [utf8_ascii hascii, List.length_map]
      exact hlen
    have hencode : i.encode = infoWire i (Host.utf8 i.sdkBoard) := by
      rw [rust_encode_info, List.take_of_length_le hshort]
    have hlength : (infoWire i (Host.utf8 i.sdkBoard)).length = 63 := length_infoWire i (by omega)
    have hfields : infoFields (infoWire i (Host.utf8 i.sdkBoard)) = i := by
      rw [infoFields_infoWire i hshort hzero, hname]
    rw [hencode]
    refine ⟨hlength, (go_encode_info i).trans hencode, python_encode_info hascii hlen,
      (rust_decode_info hlength).trans ?_, (go_decode_info hlength).trans ?_,
      (python_decode_info hlength).trans ?_⟩
    · rw [hfields]
    · rw [hfields]
    · rw [hfields]
  · have hshort : ((info.sdkBoard.getD []).take 40).length ≤ 40 := by
      rw [List.length_take]
      exact min_le_left _ _
    have hzero : ∀ b ∈ (info.sdkBoard.getD []).take 40, b ≠ 0 :=
      fun b hb => (hascii b (List.mem_of_mem_take hb)).2
    have hlength : (infoWire (hostInfo info) ((info.sdkBoard.getD []).take 40)).length = 63 :=
      length_infoWire _ (by omega)
    have hfields : infoFields (infoWire (hostInfo info) ((info.sdkBoard.getD []).take 40)) = hostInfo info :=
      infoFields_infoWire _ hshort hzero
    rw [firmware_encode_info hascii]
    refine ⟨hlength, (rust_decode_info hlength).trans ?_, (go_decode_info hlength).trans ?_,
      (python_decode_info hlength).trans ?_, fun j hj _ => zero_behind_name _ hj⟩
    · rw [hfields]
    · rw [hfields]
    · rw [hfields]

/-- A board whose name fills all 40 bytes, on both sides. -/
theorem info_codecs_samples :
    Host.decodeDeviceInfo
        (Firmware.encodeDeviceInfo ⟨1, 2, 3, 1, 7, 1, 0, 0, some (List.replicate 50 0x61)⟩) =
      .ok ⟨1, (1, 2, 3), 1, 30, 1000, 7, 7, 32, 1, 0, 0, List.replicate 40 'a'⟩ ∧
    Go.decodeDeviceInfo
        (DeviceInfo.encode ⟨1, (1, 2, 3), 1, 30, 1000, 7, 7, 32, 1, 0, 0, List.replicate 40 'a'⟩) =
      .ok (goInfo ⟨1, (1, 2, 3), 1, 30, 1000, 7, 7, 32, 1, 0, 0, List.replicate 40 'a'⟩) ∧
    ∃ i : DeviceInfo, Python.decodeDeviceInfo (List.replicate 63 0) = .ok (pythonInfo i) := by
  obtain ⟨i, -, -, hpython, -⟩ := info_codecs.1 (List.replicate 63 0) rfl
  have hfirmware := info_codecs.2.2 ⟨1, 2, 3, 1, 7, 1, 0, 0, some (List.replicate 50 0x61)⟩ (by
    intro b hb
    rw [List.eq_of_mem_replicate hb]
    decide)
  have hhost := info_codecs.2.1 ⟨1, (1, 2, 3), 1, 30, 1000, 7, 7, 32, 1, 0, 0, List.replicate 40 'a'⟩ (by
    intro c hc
    rw [List.eq_of_mem_replicate hc]
    decide) (by decide)
  exact ⟨hfirmware.2.1, hhost.2.2.2.2.1, i, hpython⟩

end Hidpin.Codec
