/-
The live values that frame 80 carries.

Most are one byte scaled. Temperatures are offset by 55 degrees Celsius and
turned into Fahrenheit in whole degrees, the division rounding toward zero.
Four bits of two bytes say which circuits the ECU finds faulty; they are
gathered in one byte. All other bytes of the frame are ignored.
-/
import MemsProbe.Binary32
import MemsProbe.Frame

namespace MemsProbe

structure Reading where
  engineRpm : Nat
  coolantTemp : Int
  ambientTemp : Int
  intakeAirTemp : Int
  fuelTemp : Int
  /-- Manifold pressure in kilopascals. -/
  manifoldPressure : Binary32
  batteryVoltage : Binary32
  throttlePotVoltage : Binary32
  idleSwitch : Bool
  parkNeutralSwitch : Bool
  /-- The faulty circuits, one bit each. -/
  faultCodes : Nat
  /-- Where the idle air control valve stands. -/
  iacPosition : UInt8
  deriving DecidableEq, Repr

namespace Reading

/-- Degrees Fahrenheit for a temperature byte. -/
def degreesF (raw : UInt8) : Int :=
  (((raw.toNat : Int) - 55) * 9).tdiv 5 + 32

/-- Tenths of a volt. -/
def battery (raw : UInt8) : Binary32 :=
  Binary32.nearest raw.toNat 10

/-- Volts per step of the throttle potentiometer. -/
def throttleStep : Binary32 :=
  Binary32.nearest 2 100

def throttle (raw : UInt8) : Binary32 :=
  Binary32.times raw.toNat throttleStep

/-- Whether a bit of a byte is set. -/
def bit (b : UInt8) (i : Nat) : Bool :=
  b.toNat.testBit i

/-- Coolant sensor, intake air sensor, fuel pump circuit and throttle
circuit, from the least bit up. -/
def faults (first second : UInt8) : Nat :=
  (bit first 0).toNat + 2 * (bit first 1).toNat + 4 * (bit second 1).toNat +
    8 * (bit second 7).toNat

end Reading

/-- What a frame says of the engine. -/
def Frame80.reading (f : Frame80) : Reading where
  engineRpm := 256 * f[1].toNat + f[2].toNat
  coolantTemp := Reading.degreesF f[3]
  ambientTemp := Reading.degreesF f[4]
  intakeAirTemp := Reading.degreesF f[5]
  fuelTemp := Reading.degreesF f[6]
  manifoldPressure := Binary32.ofNat f[7].toNat
  batteryVoltage := Reading.battery f[8]
  throttlePotVoltage := Reading.throttle f[9]
  idleSwitch := Reading.bit f[10] 4
  parkNeutralSwitch := f[12] != 0
  faultCodes := Reading.faults f[13] f[14]
  iacPosition := f[18]

end MemsProbe
