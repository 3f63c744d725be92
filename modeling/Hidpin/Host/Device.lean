import Hidpin.Host.Clock
import Hidpin.Host.Protocol
import Hidpin.Lib.Program

/-! Talking to one device (`rust/src/device.rs`). What carries the reports, finds the devices and tells
    the time is outside the library (`rust/src/transport.rs` and the operating system); it is an
    arbitrary `World`. -/

namespace Hidpin.Host
open Lib

/-- One hidpin device found on the host. -/
structure DeviceEntry where
  path : String
  serial : String
  manufacturer : String
  product : String
  deriving DecidableEq, Repr

/-- The bus, the transport of the open device, the clocks and the source of request id seeds. A call may
    change the world in any way, so what happens between two calls is part of the next one. -/
class World (ω : Type) where
  /-- `Bus::devices`. -/
  devices : ω → Except Error (List DeviceEntry) × ω
  /-- `Bus::open`: the transport of the world is the one of the device opened last. -/
  openDevice : DeviceEntry → ω → Except Error Unit × ω
  /-- `Transport::read`: the bytes of the report, none when the timeout (in nanoseconds) expires; without
      a timeout it waits. -/
  read : Option ℕ → ω → Except OsError (List U8) × ω
  /-- `Transport::write`. -/
  write : List U8 → ω → Except OsError Unit × ω
  /-- `Transport::get_feature_report`: the bytes of the buffer that the call filled. -/
  getFeatureReport : U8 → ω → Except OsError (List U8) × ω
  /-- `Transport::send_feature_report`. -/
  sendFeatureReport : List U8 → ω → Except OsError Unit × ω
  /-- `Transport::get_input_report`: the bytes of the buffer that the call filled. -/
  getInputReport : U8 → ω → Except OsError (List U8) × ω
  /-- `Instant::now`. -/
  instant : ω → Instant × ω
  /-- `SystemTime::now`. -/
  systemTime : ω → SystemTime × ω
  /-- The nanoseconds since the epoch as 64 bits, and the process id. -/
  seed : ω → (U64 × U32) × ω

/-- How a program of the library ends without a value: an error it returns, an error that stops the
    watcher, a panic, or never. -/
inductive Stop where
  | error (e : Error)
  | fatal (e : Error)
  | panicked
  | hangs
  deriving DecidableEq, Repr

namespace Stop

/-- The error that a caller sees. -/
def toError : Stop → Option Error
  | .error e => some e
  | _ => none

/-- The error that stops the watcher. -/
def toFatal : Stop → Option Error
  | .fatal e => some e
  | _ => none

end Stop

/-- The xorshift generator of request ids. -/
abbrev RequestIds := U64

namespace RequestIds

/-- A generator, from the time and the process id. -/
def new (nanos : U64) (pid : U32) : RequestIds := (nanos ^^^ pid.setWidth 64 <<< 32) ||| 1

/-- The next number, from 1 to 255. -/
def next (x : RequestIds) : U8 × RequestIds :=
  let x := x ^^^ x <<< 13
  let x := x ^^^ x >>> 7
  let x := x ^^^ x <<< 17
  ((x % 255).setWidth 8 + 1, x)

/-- The loop of `next_request_id`, at most `k` times. -/
def draw (last : U8) : ℕ → RequestIds → Option (U8 × RequestIds)
  | 0, _ => none
  | k + 1, x => if (next x).1 ≠ last then some (next x) else draw last k (next x).2

end RequestIds

/-- One open device. The transport is the world's. -/
structure Device where
  serial : String
  info : Option DeviceInfo
  config : Option PinConfig
  requestIds : RequestIds
  lastRequestId : U8
  lastSeq : Option U16
  missed : ℕ

namespace Device
variable {ω : Type} [World ω]

/-- A program that uses an open device. -/
abbrev Io (ω α : Type) := Prog (Device × ω) Stop α

/-- A device that was just opened. -/
def new (serial : String) (nanos : U64) (pid : U32) : Device where
  serial
  info := none
  config := none
  requestIds := .new nanos pid
  lastRequestId := 0
  lastSeq := none
  missed := 0

/-- A call of the transport; its errors become errors of the library. -/
def transport {α : Type} (f : ω → Except OsError α × ω) : Io ω α := do
  match ← Prog.call fun (d, w) => ((f w).1, (d, (f w).2)) with
  | .ok a => return a
  | .error e => throw (.error (.os e))

/-- Changes the fields of a device. -/
def set (f : Device → Device) : Io ω Unit := Prog.update fun (d, w) => (f d, w)

/-- The `?` operator. -/
def ofExcept {α : Type} : Except Error α → Io ω α
  | .ok a => return a
  | .error e => throw (.error e)

/-- Reads a feature report. -/
def getFeature (reportId : U8) : Io ω (List U8) := do
  let buf ← transport (World.getFeatureReport reportId)
  if buf.length < reportLen then
    throw (.error (.malformed ("feature report " ++ toString reportId.toNat ++ " is only " ++
      toString buf.length ++ " bytes long")))
  else if byteAt buf 0 ≠ reportId then
    throw (.error (.malformed ("asked for feature report " ++ toString reportId.toNat ++
      " but got report " ++ toString (byteAt buf 0).toNat)))
  else return buf.tail

/-- `info`: read once and checked for the protocol version. -/
def readInfo : Io ω DeviceInfo := do
  match ← Prog.gets fun (d, _) => d.info with
  | some info => return info
  | none =>
    let info ← ofExcept (decodeDeviceInfo (← getFeature reportIdDeviceInfo))
    if info.protocolVersion ≠ protocolVersion then throw (.error (.protocolVersion info.protocolVersion))
    else
      set fun d => { d with info := some info }
      return info

/-- Reads the pin configuration report now, together with the result of the last write. -/
def getPinConfig : Io ω PinConfigReport := do
  let report ← ofExcept (decodePinConfig (← getFeature reportIdPinConfig))
  set fun d => { d with config := some report.config }
  return report

/-- A generator that drew the last id once in every one of its states draws it forever. -/
def nextRequestId : Io ω U8 := do
  match ← Prog.gets fun (d, _) => RequestIds.draw d.lastRequestId (2 ^ 64) d.requestIds with
  | some (id, ids) =>
    set fun d => { d with requestIds := ids, lastRequestId := id }
    return id
  | none => throw .hangs

/-- Writes a whole pin configuration and verifies it was applied. -/
def setPinConfig (config : PinConfig) : Io ω PinConfigReport := do
  let available := (← readInfo).available
  let (result, gpio) := validatePinConfig config available
  if result ≠ .ok then throw (.error (.pinConfigRejected result gpio true))
  else
    let requestId ← nextRequestId
    let payload ← ofExcept (encodePinConfigSet config requestId)
    transport (World.sendFeatureReport (reportIdPinConfig :: payload))
    let read ← getPinConfig
    if read.requestId ≠ requestId then throw (.error (.pinConfigConflict requestId read.requestId))
    else if read.result ≠ .ok then
      throw (.error (.pinConfigRejected read.result read.resultGpio false))
    else if read.config ≠ config then throw (.error .pinConfigMismatch)
    else return read

/-- Changes some pins and keeps every other pin as it is. -/
def updatePins (settings : List (U8 × PinSetting)) : Io ω PinConfigReport := do
  let config ← ofExcept ((← getPinConfig).config.withPins settings)
  setPinConfig config

/-- Asks for the current state with Get_Report(Input). -/
def requestStatus : Io ω StatusReport := do
  let buf ← transport (World.getInputReport reportIdStatus)
  if buf.length < reportLen ∨ byteAt buf 0 ≠ reportIdStatus then
    throw (.error (.malformed "could not read the status report"))
  else ofExcept (decodeStatus buf.tail)

/-- Reads one input report with the report ID first; empty when the timeout expires. -/
def readRaw (timeout : Option ℕ) : Io ω (List U8) := transport (World.read timeout)

/-- Reports lost between two received ones, from the gap in seq. -/
def missedBetween (last : Option U16) (seq : U16) : ℕ :=
  match last with
  | none => 0
  | some last => (seq - last - 1).toNat

/-- Waits for the next status report; none when the timeout expires. -/
def readStatus (timeout : Option ℕ) : Io ω (Option StatusReport) := do
  let buf ← readRaw timeout
  if buf.length = 0 then return none
  else if byteAt buf 0 ≠ reportIdStatus then
    throw (.error (.malformed ("received an unexpected report ID " ++ toString (byteAt buf 0).toNat)))
  else if buf.length < reportLen then
    throw (.error (.malformed ("status report is only " ++ toString buf.length ++ " bytes long")))
  else
    let report ← ofExcept (decodeStatus buf.tail)
    if contains report.reason Reason.hostRequest then return some report
    else
      set fun d =>
        { d with missed := d.missed + missedBetween d.lastSeq report.seq, lastSeq := some report.seq }
      return some report

/-- Sends an output report. -/
def writeOutputs (mask value : U32) : Io ω Unit :=
  transport (World.write (reportIdOutput :: encodeOutput mask value))

/-- The loop of `set_outputs`: the mask and the value, or the first GPIO out of range. -/
def collectOutputs : List (U8 × Bool) → U32 × U32 → Except Error (U32 × U32)
  | [], masks => .ok masks
  | (gpio, high) :: levels, (mask, value) =>
    if gpioCount ≤ gpio.toNat then
      .error (.invalidArgument ("GPIO" ++ toString gpio.toNat ++ " is out of range (0-29)"))
    else
      collectOutputs levels
        (mask ||| bit 32 gpio.toNat, if high then value ||| bit 32 gpio.toNat else value)

/-- Drives output pins; a GPIO outside 0-29 is an error and nothing is sent. -/
def setOutputs (levels : List (U8 × Bool)) : Io ω Unit := do
  let (mask, value) ← ofExcept (collectOutputs levels (0, 0))
  writeOutputs mask value

/-! ### Errors -/

/-- The program ends with a value or an error of the library, or never. -/
def Tame {α : Type} (m : Io ω α) : Prop :=
  ∀ s, m.wp (Prog.post (fun _ _ => True) fun e _ => e.toError.isSome = true ∨ e = .hangs) s

end Device

namespace Device.Tame
variable {ω α β : Type}

theorem pure (a : α) : Tame (Pure.pure a : Io ω α) := fun _ => trivial

theorem error (e : Error) : Tame (throw (.error e) : Io ω α) := fun _ => Or.inl rfl

theorem bind {m : Io ω α} {f : α → Io ω β} (hm : Tame m) (hf : ∀ a, Tame (f a)) :
    Tame (m >>= f) := fun s => by
  rw [Prog.wp_bind]
  refine Prog.wp_mono (hm s) fun r s' h => ?_
  cases r with
  | ok a => exact hf a s'
  | error e => exact h

theorem gets (f : Device × ω → α) : Tame (Prog.gets f : Io ω α) := fun _ => trivial

theorem set (f : Device → Device) : Tame (Device.set f : Io ω Unit) := fun _ => trivial

theorem transport (f : ω → Except OsError α × ω) : Tame (Device.transport f) := by
  refine bind (fun _ => trivial) fun r => ?_
  cases r with
  | ok a => exact pure a
  | error e => exact error _

theorem ofExcept (r : Except Error α) : Tame (Device.ofExcept r : Io ω α) := by
  cases r with
  | ok a => exact pure a
  | error e => exact error e

variable [World ω]

theorem getFeature (reportId : U8) : Tame (Device.getFeature reportId : Io ω (List U8)) := by
  refine bind (transport _) fun buf => ?_
  split
  · exact error _
  · split
    · exact error _
    · exact pure _

theorem readInfo : Tame (Device.readInfo : Io ω DeviceInfo) := by
  refine bind (gets _) fun info => ?_
  split
  · exact pure _
  · refine bind (getFeature _) fun _ => bind (ofExcept _) fun info => ?_
    split
    · exact error _
    · exact bind (set _) fun _ => pure _

theorem getPinConfig : Tame (Device.getPinConfig : Io ω PinConfigReport) :=
  bind (getFeature _) fun _ => bind (ofExcept _) fun _ => bind (set _) fun _ => pure _

theorem setPinConfig (config : PinConfig) :
    Tame (Device.setPinConfig config : Io ω PinConfigReport) := by
  refine bind readInfo fun info => ?_
  dsimp only
  split
  · exact error _
  · refine bind (bind (gets _) fun ids => ?_) fun id => ?_
    · split
      · exact bind (set _) fun _ => pure _
      · exact fun _ => Or.inr rfl
    · refine bind (ofExcept _) fun _ => bind (transport _) fun _ => bind getPinConfig fun read => ?_
      split
      · exact error _
      · split
        · exact error _
        · split
          · exact error _
          · exact pure _

theorem requestStatus : Tame (Device.requestStatus : Io ω StatusReport) := by
  refine bind (transport _) fun buf => ?_
  split
  · exact error _
  · exact ofExcept _

theorem readRaw (timeout : Option ℕ) : Tame (Device.readRaw timeout : Io ω (List U8)) := transport _

theorem setOutputs (levels : List (U8 × Bool)) : Tame (Device.setOutputs levels : Io ω Unit) :=
  bind (ofExcept _) fun _ => transport _

end Device.Tame

/-! ### The world -/

/-- A property of the world that the calls of the transport keep, those of `read` apart. -/
structure Device.Unmoved {ω : Type} [World ω] (I : ω → Prop) : Prop where
  write : ∀ report w, I w → I (World.write report w).2
  getFeatureReport : ∀ reportId w, I w → I (World.getFeatureReport reportId w).2
  sendFeatureReport : ∀ report w, I w → I (World.sendFeatureReport report w).2
  getInputReport : ∀ reportId w, I w → I (World.getInputReport reportId w).2

namespace Device.Unmoved
open Prog (Keeps)
variable {ω α : Type} {I : ω → Prop}

theorem transport {f : ω → Except OsError α × ω} (hf : ∀ w, I w → I (f w).2) :
    Keeps (fun s : Device × ω => I s.2) (Device.transport f) := by
  refine Keeps.bind (Keeps.call fun s => hf s.2) fun r => ?_
  cases r with
  | ok a => exact Keeps.pure a
  | error e => exact Keeps.throw _

theorem ofExcept (r : Except Error α) : Keeps (fun s : Device × ω => I s.2) (Device.ofExcept r) := by
  cases r with
  | ok a => exact Keeps.pure a
  | error e => exact Keeps.throw _

theorem set (f : Device → Device) : Keeps (fun s : Device × ω => I s.2) (Device.set f) :=
  Keeps.update fun _ h => h

variable [World ω]

theorem getFeature (h : Unmoved I) (reportId : U8) :
    Keeps (fun s => I s.2) (Device.getFeature reportId : Io ω (List U8)) := by
  refine Keeps.bind (transport (h.getFeatureReport reportId)) fun buf => ?_
  split
  · exact Keeps.throw _
  · split
    · exact Keeps.throw _
    · exact Keeps.pure _

theorem readInfo (h : Unmoved I) : Keeps (fun s => I s.2) (Device.readInfo : Io ω DeviceInfo) := by
  refine Keeps.bind (Keeps.gets _) fun info => ?_
  split
  · exact Keeps.pure _
  · refine Keeps.bind (h.getFeature _) fun _ => Keeps.bind (ofExcept _) fun info => ?_
    split
    · exact Keeps.throw _
    · exact Keeps.bind (set _) fun _ => Keeps.pure _

theorem getPinConfig (h : Unmoved I) : Keeps (fun s => I s.2) (Device.getPinConfig : Io ω PinConfigReport) :=
  Keeps.bind (h.getFeature _) fun _ => Keeps.bind (ofExcept _) fun _ => Keeps.bind (set _)
    fun _ => Keeps.pure _

theorem setPinConfig (h : Unmoved I) (config : PinConfig) :
    Keeps (fun s => I s.2) (Device.setPinConfig config : Io ω PinConfigReport) := by
  refine Keeps.bind h.readInfo fun info => ?_
  dsimp only
  split
  · exact Keeps.throw _
  · refine Keeps.bind (Keeps.bind (Keeps.gets _) fun ids => ?_) fun id => ?_
    · split
      · exact Keeps.bind (set _) fun _ => Keeps.pure _
      · exact Keeps.throw _
    · refine Keeps.bind (ofExcept _) fun _ => Keeps.bind (transport (h.sendFeatureReport _)) fun _ =>
        Keeps.bind h.getPinConfig fun read => ?_
      split
      · exact Keeps.throw _
      · split
        · exact Keeps.throw _
        · split
          · exact Keeps.throw _
          · exact Keeps.pure _

theorem requestStatus (h : Unmoved I) :
    Keeps (fun s => I s.2) (Device.requestStatus : Io ω StatusReport) := by
  refine Keeps.bind (transport (h.getInputReport _)) fun buf => ?_
  split
  · exact Keeps.throw _
  · exact ofExcept _

theorem setOutputs (h : Unmoved I) (levels : List (U8 × Bool)) :
    Keeps (fun s => I s.2) (Device.setOutputs levels : Io ω Unit) :=
  Keeps.bind (ofExcept _) fun _ => transport (h.write _)

end Device.Unmoved

end Hidpin.Host
