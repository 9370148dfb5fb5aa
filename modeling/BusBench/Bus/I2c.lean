import BusBench.Bus.Byte

/-!
# I2C addresses

* `I2c.writeAddress`, `I2c.readAddress`: the address bytes of a device.
* `I2c.scanned`: the addresses where a scan looks for devices.
-/

namespace BusBench.I2c

/-- The address byte of a write to a device. -/
def writeAddress (device : UInt8) : UInt8 :=
  device <<< 1

/-- The address byte of a read from a device. -/
def readAddress (device : UInt8) : UInt8 :=
  device <<< 1 ||| 1

/-- The addresses where a scan looks for devices, all but the reserved ranges at both ends. -/
def scanned : List UInt8 :=
  (List.range 0x70).map fun i => UInt8.ofNat (0x08 + i)

end BusBench.I2c
