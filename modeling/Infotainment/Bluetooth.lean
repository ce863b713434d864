import Infotainment.MainScreen
import Infotainment.SystemInterface

/-!
# Watching for bluetooth connections

`updatBluetoothDevices` decides from the position of the first colon in what `hcitool con` prints
whether a device is connected, and takes its address from a search for the regular expression
`[a-fA-F0-9:]{17}|[a-fA-F0-9]{12}`.  The position is an `int` and is compared with
`length() - 1`, a `size_t`; both sides are reduced to 64 bits in `firstColonIsLast`.
-/

namespace Infotainment

variable {W : Type}

/-- `[a-fA-F0-9]` -/
def isHexDigit (c : Char) : Bool :=
  ('a' ≤ c && c ≤ 'f') || ('A' ≤ c && c ≤ 'F') || ('0' ≤ c && c ≤ '9')

/-- `macRegex` at the front of a text.  The alternatives are tried in order. -/
def macMatch (s : Text) : Option Text :=
  if (s.take 17).length = 17 ∧ (s.take 17).all (fun c => isHexDigit c || c = ':') then
    some (s.take 17)
  else if (s.take 12).length = 12 ∧ (s.take 12).all isHexDigit then some (s.take 12)
  else none

/-- `regex_search`: the leftmost match. -/
def macSearch : Text → Option Text
  | [] => none
  | c :: s => (macMatch (c :: s)).orElse fun _ => macSearch s

/-- `end == listConnectedDevices.length()-1` -/
def firstColonIsLast (listing : Text) : Bool :=
  findInt ":".toList listing 0 % 2 ^ 64 = ((listing.length : ℤ) - 1) % 2 ^ 64

namespace State

variable (s : State)

/-- The slot of the bluetooth timer: the state it leaves, and the address it asks `hcitool name`
about if it asks. -/
def pollBluetooth (sh : Shell W) : State × Option Text :=
  let listConnectedDevices := getStdoutFromCommand sh .hcitoolCon
  if firstColonIsLast listConnectedDevices = true then
    ({ s with
      bluetoothDeviceConnected := .notConnected
      ui.connectedBluetoothDeviceLabel := "Connect Your Device!".toList
      ui.bluetoothIconLabel := false }, none)
  else if s.bluetoothDeviceConnected = .notConnected then
    -- without a match the address stays empty
    let deviceAddress := (macSearch listConnectedDevices).getD []
    let deviceName := getStdoutFromCommand sh (.hcitoolName deviceAddress)
    ({ s with
      bluetoothDeviceConnected := .connected
      ui.connectedBluetoothDeviceLabel := "Connected Device: ".toList ++ deviceName
      ui.bluetoothIconLabel := true }, some deviceAddress)
  else (s, none)

/-- `updatBluetoothDevices` -/
def updatBluetoothDevices (sh : Shell W) : State := (s.pollBluetooth sh).1

/-- The address `updatBluetoothDevices` hands to `hcitool name`, if it runs that command. -/
def askedAddress (sh : Shell W) : Option Text := (s.pollBluetooth sh).2

end State
end Infotainment
