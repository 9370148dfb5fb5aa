import BusBench.Prompt.MacroTable
import BusBench.Sequence.Action
import BusBench.World

/-!
# The 1-Wire mode

Besides plain sequences the mode has macros for the commands that address devices. A search of the
bus turns every device it finds, up to the fiftieth, into a macro that addresses this device.

* `OneWire.run`: runs a sequence.
* `OneWire.searchRom`: searches the bus and renews the macros of devices.
-/

namespace BusBench.OneWire

variable {ω β τ : Type} [Terminal τ]

/-! ## Devices -/

def families : List (UInt8 × String) :=
  [(0x10, "DS18S20 High Prec Dig Therm"), (0x28, "DS18B20 Prog Res Dig Therm"),
   (0x22, "DS1822 Econo Dig Therm"), (0x04, "DS2404 EconoRAM time Chip"),
   (0x2D, "DS2431 1K EEPROM")]

def deviceName (family : UInt8) : String :=
  (families.lookup family).getD "Unknown device"

def romText (rom : Rom) : String :=
  " ".intercalate (rom.bytes.map fun b => "0x" ++ Text.hex b.toNat)

/-! ## State -/

inductive Shortcut where
  | readRom
  | skipRom
  | searchRom
  /-- Addresses the device of an index in the list of devices. -/
  | device (index : Nat)
  deriving DecidableEq, Repr

/-- The macros, and the devices that the last search found. -/
structure Session where
  shortcuts : MacroTable Shortcut
  devices : List Rom

def romShortcuts : MacroTable Shortcut :=
  .ofList
    [(51, "READ ROM (0x33) *for single device bus", .readRom),
     (204, "SKIP ROM (0xCC) *followed by command", .skipRom),
     (240, "SEARCH ROM (0xF0)", .searchRom)]

def Session.initial : Session :=
  ⟨romShortcuts, []⟩

/-- How many devices get a macro. -/
def deviceShortcuts : Nat := 50

def shortcutName (rom : Rom) : String :=
  romText rom ++ "\n   " ++ deviceName (rom.byte 0)

/-! ## Actions on the bus -/

/-- Resets the bus and shows whether anybody is there. -/
def reset : Act ω β τ Error Unit := do
  let present ← Act.done (← Act.ask (.oneWire .reset))
  Act.writeLine (if present then "BUS RESET  OK" else "BUS RESET  NO DEVICE")

def readBytes (count : Nat) : Act ω β τ Error (List UInt8) := do
  let bytes ← Act.done (← Act.ask (.oneWire (.read count)))
  return bytes.val

def runAction : Action → Act ω β τ Error Unit
  | .start => reset
  | .write value count => do
    let bytes := List.replicate count.toNat value
    Act.dialogue (Terminal.writeBytesLine "WRITE:" bytes)
    Act.done (← Act.ask (.oneWire (.write bytes)))
  | .read count => do
    let bytes ← readBytes count.toNat
    Act.dialogue (Terminal.writeBytesLine "READ:" bytes)
  | _ => return

def run (actions : List Action) : Act ω β τ Error Unit :=
  actions.forM runAction

/-- Shows the code of the only device. -/
def readRom : Act ω β τ Error Unit := do
  reset
  Act.done (← Act.ask (.oneWire (.write [0x33])))
  let bytes ← readBytes 8
  Act.dialogue (Terminal.writeBytesLine "READ ROM (0x33):" bytes)
  Act.writeLine (deviceName (bytes.headD 0))

/-- Addresses all devices at once. -/
def skipRom : Act ω β τ Error Unit := do
  Act.dialogue (Terminal.writeBytesLine "WRITE:" [0xCC])
  Act.done (← Act.ask (.oneWire (.write [0xCC])))

/-- Shows devices and gives them macros, from an index on. -/
def listDevices : Nat → List Rom → Act Session β τ Error Unit
  | _, [] => return
  | index, rom :: roms => do
    Act.writeLine (" " ++ Text.decimal (index + 1) ++ ". " ++ romText rom)
    Act.writeLine (deviceName (rom.byte 0))
    if index < deviceShortcuts then
      Act.modifyOwn fun session =>
        let key := UInt8.ofNat (index + 1)
        { session with
          shortcuts := session.shortcuts.register key (shortcutName rom) (.device index) }
    listDevices (index + 1) roms

/-- The table without the macros of devices. -/
def forgetDevices (table : MacroTable Shortcut) : MacroTable Shortcut :=
  (List.range deviceShortcuts).foldl (fun table i => table.remove (UInt8.ofNat (i + 1))) table

/-- Searches the bus, shows what it finds, and renews the macros of devices. -/
def searchRom : Act Session β τ Error Unit := do
  let found ← Act.done (← Act.ask (.oneWire .search))
  Act.modifyOwn fun session => { session with shortcuts := forgetDevices session.shortcuts }
  Act.writeLine "Macro    1WIRE address"
  listDevices 0 found
  Act.modifyOwn fun session => { session with devices := found }

/-- Addresses the device of an index, if there is one. -/
def addressDevice (index : Nat) : Act Session β τ Error Unit := do
  match (← Act.own).devices[index]? with
  | none => return
  | some rom =>
    Act.writeLine ("ADDRESS MACRO " ++ Text.decimal (index + 1) ++ ": " ++ romText rom)
    Act.done (← Act.ask (.oneWire (.write rom.bytes)))

def runShortcut (key : UInt8) : Act Session β τ Error Unit := do
  match ← Act.dialogue ((← Act.own).shortcuts.resolve key) with
  | some .readRom => readRom
  | some .skipRom => skipRom
  | some .searchRom => searchRom
  | some (.device index) => addressDevice index
  | none => return

omit [Terminal τ] in
/-- Claims the bus. -/
def enter : Act ω β τ Error Session := do
  Act.claimed (← Act.ask (.oneWire (.claim .mosi)))
  return .initial

omit [Terminal τ] in
def leave : Act ω β τ Error Unit :=
  Act.tell (.oneWire .release)

end BusBench.OneWire
