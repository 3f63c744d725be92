import Hidpin.Lib.Bytes

/-! The errors of the host library (`rust/src/error.rs`) and the result of a pin configuration Set, which
    one of them carries. -/

namespace Hidpin.Host

def protocolVersion : U8 := 1
def resultGpioNone : U8 := 0xFF

/-- The outcome of the last pin configuration Set; unknown values are kept. -/
structure ResultCode where
  code : U8
  deriving DecidableEq, Repr

namespace ResultCode

def ok : ResultCode := ⟨0⟩
def badLength : ResultCode := ⟨1⟩
def badMode : ResultCode := ⟨2⟩
def unavailableGpio : ResultCode := ⟨3⟩
def unusedWithParam : ResultCode := ⟨4⟩
def badOutputLevel : ResultCode := ⟨5⟩

def message (r : ResultCode) : String :=
  if r = ok then "applied"
  else if r = badLength then "the payload is not 63 bytes long"
  else if r = badMode then "mode is outside 0-4"
  else if r = unavailableGpio then "the pin is not an available GPIO"
  else if r = unusedWithParam then "an unused pin was given a parameter"
  else if r = badOutputLevel then "the initial output level is neither 0 nor 1"
  else "result " ++ toString r.code.toNat

end ResultCode

/-- An error of the operating system: its text and whether its kind is `PermissionDenied`. -/
structure OsError where
  text : String
  permissionDenied : Bool
  deriving DecidableEq, Repr

inductive Error where
  | deviceNotFound (serial : Option String)
  | severalDevices (serials : List String)
  | protocolVersion (deviceVersion : U8)
  | pinConfigRejected (result : ResultCode) (gpio : U8) (isLocal : Bool)
  | pinConfigConflict (expected seen : U8)
  | pinConfigMismatch
  | unsupportedPlatform
  | deviceDisconnected
  | watcherClosed
  | malformed (message : String)
  | invalidArgument (message : String)
  | openFailed (path : String) (source : OsError)
  | os (source : OsError)
  deriving DecidableEq, Repr

/-- The text of an error, as `to_string` gives it. -/
def Error.text : Error → String
  | .deviceNotFound none => "no hidpin device found"
  | .deviceNotFound (some serial) =>
    "no hidpin device found: no device with serial number " ++ serial
  | .severalDevices serials =>
    "several devices are connected; pick one with --serial: " ++ String.intercalate ", " serials
  | .protocolVersion v =>
    "device speaks protocol version " ++ toString v.toNat ++ ", this library speaks " ++
      toString Host.protocolVersion.toNat
  | .pinConfigRejected result gpio isLocal =>
    (if isLocal then "the pin configuration is invalid (nothing was sent to the device): "
      else "the device rejected the pin configuration: ") ++ result.message ++
      if gpio ≠ resultGpioNone then " (GPIO" ++ toString gpio.toNat ++ ")" else ""
  | .pinConfigConflict expected seen =>
    "another process changed the pin configuration (sent request_id " ++ toString expected.toNat ++
      ", read back " ++ toString seen.toNat ++ ")"
  | .pinConfigMismatch => "the configuration the device applied differs from the one that was sent"
  | .unsupportedPlatform => "hidpin supports Linux (hidraw) only"
  | .deviceDisconnected => "the hidpin device is not connected"
  | .watcherClosed => "the watcher has stopped"
  | .malformed message => message
  | .invalidArgument message => message
  | .openFailed path source =>
    "cannot open " ++ path ++ " (" ++ source.text ++ ")" ++
      if source.permissionDenied then
        ". Install the udev rule and replug the board: sudo cp udev/60-hidpin.rules " ++
          "/etc/udev/rules.d/ && sudo udevadm control --reload-rules && sudo udevadm trigger"
      else ""
  | .os source => source.text

end Hidpin.Host
