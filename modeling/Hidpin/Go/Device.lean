import Hidpin.Go.Settings
import Hidpin.Host.Device

/-! One open device in the Go library (`hidpin/device.go`), with the calls that the command makes of it. The
    transport, the bus and the errors of the operating system are those of an arbitrary `World`. -/

namespace Hidpin.Go
open Firmware (Gpio gpioCount)
open Host (DeviceEntry OsError World byteAt reportLen protocolVersion reportIdStatus reportIdDeviceInfo
  reportIdPinConfig reportIdOutput resultGpioNone)
open Lib (Prog)

/-- `Result.Message`. -/
def resultMessage (result : U8) : String :=
  if result = resultOk then "applied"
  else if result = resultBadLength then "the payload is not 63 bytes long"
  else if result = resultBadMode then "mode is outside 0-4"
  else if result = resultUnavailableGpio then "the pin is not an available GPIO"
  else if result = resultUnusedWithParam then "an unused pin was given a parameter"
  else if result = resultBadOutputLevel then "the initial output level is neither 0 nor 1"
  else "result " ++ toString result.toNat

/-- The errors of the library. `bus` is one of what finds and opens the devices. -/
inductive Error where
  | bus (e : Host.Error)
  | notFound (serial : String)
  | severalDevices (serials : List String)
  | os (context : String) (source : OsError)
  | protocolVersion (deviceVersion : U8)
  | pinConfigRejected (result gpio : U8) (isLocal : Bool)
  | pinConfigConflict (expected seen : U8)
  | message (text : String)
  deriving DecidableEq

namespace Error

/-- What `Error` returns. -/
def text : Error → String
  | .bus e => e.text
  | .notFound serial => if serial = "" then "no hidpin device found"
    else "no hidpin device found: no device with serial number " ++ serial
  | .severalDevices serials =>
      "several devices are connected; pick one with --serial: " ++ String.intercalate ", " serials
  | .os context source => context ++ source.text
  | .protocolVersion v =>
      "device speaks protocol version " ++ toString v.toNat ++ ", this library speaks " ++
        toString Host.protocolVersion.toNat
  | .pinConfigRejected result gpio isLocal =>
    (if isLocal then "the pin configuration is invalid (nothing was sent to the device)"
      else "the device rejected the pin configuration") ++ ": " ++ resultMessage result ++
      if gpio ≠ resultGpioNone then " (GPIO" ++ toString gpio.toNat ++ ")" else ""
  | .pinConfigConflict expected seen => "another process changed the pin configuration (sent request_id " ++
      toString expected.toNat ++ ", read back " ++ toString seen.toNat ++ ")"
  | .message text => text

end Error

/-- How a program of the library ends without a value. -/
inductive Stop where
  | error (e : Error)
  | hangs
  deriving DecidableEq

/-- `ChooseDevice`. -/
def chooseDevice (entries : List DeviceEntry) (serial : String) : Except Error DeviceEntry :=
  match entries.filter fun e => serial = "" ∨ e.serial = serial with
  | [] => .error (.notFound serial)
  | e :: rest =>
    if rest ≠ [] ∧ serial = "" then .error (.severalDevices ((e :: rest).map DeviceEntry.serial)) else .ok e

/-- One open device. The transport is the world's; `draws` is what the random numbers of `nextRequestID` will
    be, as far as they are drawn. -/
structure Device where
  serial : String
  info : Option DeviceInfo
  config : Option PinConfig
  draws : List (Fin 255)
  lastRequestId : U8

namespace Device
variable {ω : Type} [World ω]

/-- A program that uses an open device. -/
abbrev Io (ω α : Type) := Prog (Device × ω) Stop α

/-- `NewDevice`. -/
def new (serial : String) (draws : List (Fin 255)) : Device := ⟨serial, none, none, draws, 0⟩

/-- A call of the transport. -/
def transport {α : Type} (context : String) (f : ω → Except OsError α × ω) : Io ω α := do
  match ← Prog.call fun (d, w) => ((f w).1, (d, (f w).2)) with
  | .ok a => return a
  | .error e => throw (.error (.os context e))

/-- Changes the fields of a device. -/
def set (f : Device → Device) : Io ω Unit := Prog.update fun (d, w) => (f d, w)

/-- A result whose error ends the call. -/
def ofExcept {α : Type} : Except String α → Io ω α
  | .ok a => return a
  | .error text => throw (.error (.message text))

/-- Reads a feature report. -/
def getFeature (reportId : U8) : Io ω (List U8) := do
  let buf ← transport ("reading feature report " ++ toString reportId.toNat ++ ": ")
    (World.getFeatureReport reportId)
  if buf.length < reportLen then
    throw (.error (.message ("feature report " ++ toString reportId.toNat ++ " is only " ++
      toString buf.length ++ " bytes long")))
  else if byteAt buf 0 ≠ reportId then
    throw (.error (.message ("asked for feature report " ++ toString reportId.toNat ++ " but got report " ++
      toString (byteAt buf 0).toNat)))
  else return buf.tail

/-- `Info`: read once and checked for the protocol version. -/
def readInfo : Io ω DeviceInfo := do
  match ← Prog.gets fun (d, _) => d.info with
  | some info => return info
  | none =>
    let info ← ofExcept (decodeDeviceInfo (← getFeature reportIdDeviceInfo))
    if info.protocolVersion ≠ protocolVersion then throw (.error (.protocolVersion info.protocolVersion))
    else
      set fun d => { d with info := some info }
      return info

/-- `Device.PinConfigReport`. -/
def getPinConfig : Io ω PinConfigReport := do
  let report ← ofExcept (decodePinConfig (← getFeature reportIdPinConfig))
  set fun d => { d with config := some report.config }
  return report

/-- `PinConfig`: read only if it has not been read yet. -/
def pinConfig : Io ω PinConfig := do
  match ← Prog.gets fun (d, _) => d.config with
  | some config => return config
  | none => return (← getPinConfig).config

/-- The loop of `nextRequestID`: the first id that is not the last one, and the numbers behind it. -/
def draw (last : U8) : List (Fin 255) → Option (U8 × List (Fin 255))
  | [] => none
  | r :: draws =>
    if BitVec.ofNat 8 (r.val + 1) ≠ last then some (BitVec.ofNat 8 (r.val + 1), draws)
    else draw last draws

/-- `nextRequestID`; it draws until the id is another one. -/
def nextRequestId : Io ω U8 := do
  match ← Prog.gets fun (d, _) => draw d.lastRequestId d.draws with
  | some (id, draws) =>
    set fun d => { d with draws, lastRequestId := id }
    return id
  | none => throw .hangs

/-- `Device.SetPinConfig`. -/
def setPinConfig (config : PinConfig) : Io ω PinConfigReport := do
  let available := (← readInfo).available
  let (result, gpio) := validatePinConfig config available
  if result ≠ resultOk then throw (.error (.pinConfigRejected result gpio true))
  else
    let requestId ← nextRequestId
    let payload ← ofExcept (encodePinConfigSet config requestId)
    transport "writing the pin configuration: " (World.sendFeatureReport (reportIdPinConfig :: payload))
    let report ← getPinConfig
    if report.requestId ≠ requestId then throw (.error (.pinConfigConflict requestId report.requestId))
    else if report.result ≠ resultOk
      then throw (.error (.pinConfigRejected report.result report.resultGpio false))
    else if report.config ≠ config then
      throw (.error (.message "the configuration the device applied differs from the one that was sent"))
    else return report

/-- Changes some pins and keeps every other pin as it is. -/
def updatePins (settings : Gpio → Option PinSetting) : Io ω PinConfigReport := do
  let current ← getPinConfig
  setPinConfig (current.config.withPins settings)

/-- Asks for the current state with Get_Report(Input). -/
def requestStatus : Io ω Status := do
  let buf ← transport "could not read the status report: " (World.getInputReport reportIdStatus)
  if buf.length < reportLen ∨ byteAt buf 0 ≠ reportIdStatus then
    throw (.error (.message "could not read the status report"))
  else ofExcept (decodeStatus buf.tail)

/-- Sends an output report. -/
def writeOutputs (mask value : U32) : Io ω Unit :=
  transport "" (World.write (reportIdOutput :: encodeOutput mask value))

/-- Drives output pins; those that are none are left to the device. -/
def setOutputs (levels : Gpio → Option Bool) : Io ω Unit :=
  writeOutputs (Lib.collect 32 fun n : Gpio => (levels n).isSome)
    (Lib.collect 32 fun n : Gpio => (levels n).getD false)

end Device

/-- `Open`: the device with the serial number, or the only one when the number is empty. -/
def openDevice {ω : Type} [World ω] (serial : String) (draws : List (Fin 255)) : Prog ω Stop Device := do
  match ← Prog.call World.devices with
  | .error e => throw (.error (.bus e))
  | .ok entries => match chooseDevice entries serial with
    | .error e => throw (.error e)
    | .ok entry => match ← Prog.call (World.openDevice entry) with
      | .error e => throw (.error (.bus e))
      | .ok () => return .new entry.serial draws

end Hidpin.Go
