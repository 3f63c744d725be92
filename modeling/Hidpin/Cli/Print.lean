import Hidpin.Go.Settings

/-! What the command prints (`tools/hidpin/main.go`): JSON as `encoding/json` writes it, and the texts of
    levels, settings and the device information. -/

namespace Hidpin.Cli
open Firmware (Gpio gpioCount)
open Go (PinSetting DeviceInfo)

/-! ### JSON -/

/-- Four hexadecimal digits. -/
def hexDigits (n : ℕ) : String :=
  String.ofList ((List.range 4).reverse.map fun i => Nat.digitChar (n / 16 ^ i % 16))

/-- A character in a JSON text, with the ones of HTML escaped, too. -/
def jsonChar (c : Char) : String :=
  if c = '"' then "\\\""
  else if c = '\\' then "\\\\"
  else if c = '\n' then "\\n"
  else if c = '\r' then "\\r"
  else if c = '\t' then "\\t"
  else if c.toNat = 8 then "\\b"
  else if c.toNat = 12 then "\\f"
  else if c.toNat < 0x20 ∨ c = '<' ∨ c = '>' ∨ c = '&' ∨ c.toNat = 0x2028 ∨ c.toNat = 0x2029 then
    "\\u" ++ hexDigits c.toNat
  else String.ofList [c]

/-- A JSON string. -/
def jsonText (s : String) : String := "\"" ++ String.join (s.toList.map jsonChar) ++ "\""

/-- A JSON number. -/
def jsonNat (n : ℕ) : String := toString n

/-- A JSON truth value. -/
def jsonBool (b : Bool) : String := if b then "true" else "false"

/-- A JSON array of JSON texts. -/
def jsonArray (values : List String) : String := "[" ++ String.intercalate "," values ++ "]"

/-- A JSON object of keys and JSON texts. -/
def jsonObject (fields : List (String × String)) : String :=
  "\x7b" ++ String.intercalate "," (fields.map fun field => jsonText field.1 ++ ":" ++ field.2) ++ "\x7d"

/-- `gpioMap`, the keys in ascending order. -/
def gpioMap {α : Type} (json : α → String) (values : Gpio → Option α) : String :=
  jsonObject ((List.finRange gpioCount).filterMap fun n =>
    (values n).map fun value => (toString n.val, json value))

/-- The keys of a map in ascending order. -/
def sortedGpios {α : Type} (values : Gpio → Option α) : List Gpio :=
  (List.finRange gpioCount).filter fun n => (values n).isSome

/-! ### Texts -/

/-- `%-nd` and `%-ns`. -/
def padded (n : ℕ) (s : String) : String := s ++ String.ofList (List.replicate (n - s.length) ' ')

/-- The name of a pin. -/
def gpioName (n : Gpio) : String := "GPIO" ++ toString n.val

/-- A setting as `config get` prints it. -/
def settingText (s : PinSetting) : String := String.ofList s.string

/-- The name of a level. -/
def levelName (high : Bool) : String := if high then "HIGH" else "LOW"

/-- The name of an ON/OFF. -/
def onOffName (on : Bool) : String := if on then "ON" else "OFF"

/-- A list of GPIO numbers. -/
def formatInts (values : List Gpio) : String :=
  "[" ++ String.intercalate ", " (values.map fun n => toString n.val) ++ "]"

/-- A Go string of `asciiString` as text. -/
def asciiText : List U8 → List Char
  | 0xEF :: 0xBF :: 0xBD :: rest => '\uFFFD' :: asciiText rest
  | c :: rest => Char.ofNat c.toNat :: asciiText rest
  | [] => []

/-- `Board.Name`. -/
def boardTypeName (board : U8) : String :=
  if board = 0 then "other board"
  else if board = 1 then "Raspberry Pi Pico"
  else if board = 2 then "Adafruit QT Py RP2040"
  else if board = 3 then "Raspberry Pi Pico 2"
  else "unknown board " ++ toString board.toNat

/-- `DeviceInfo.BoardName`. -/
def boardName (info : DeviceInfo) : String :=
  if info.board = 1 ∨ info.board = 2 ∨ info.board = 3 then boardTypeName info.board
  else if info.sdkBoard ≠ [] then String.ofList (asciiText info.sdkBoard)
  else boardTypeName info.board

/-- `Chip.Name`. -/
def chipName (chip : U8) : String :=
  if chip = 0 then "not reported"
  else if chip = 1 then "RP2040"
  else if chip = 2 then "RP2350A"
  else "unknown chip " ++ toString chip.toNat

/-- The version of the firmware, in three parts. -/
def firmwareVersion (info : DeviceInfo) : String :=
  toString info.firmware.1.toNat ++ "." ++ toString info.firmware.2.1.toNat ++ "." ++
    toString info.firmware.2.2.toNat

/-- The names of the known problems of a board. -/
def quirkNames (info : DeviceInfo) : List String :=
  if info.pullDownUnreliable then ["PULL_DOWN_UNRELIABLE"] else []

end Hidpin.Cli
