/-
The actuators that the ECU can be told to work, with the byte for each
command, and the relays that are worked by a pair of them.
-/
namespace MemsProbe

inductive Actuator where
  | fuelPumpOn
  | fuelPumpOff
  | ptcRelayOn
  | ptcRelayOff
  | acRelayOn
  | acRelayOff
  | testInjectors
  | fireCoil
  | openIac
  | closeIac
  deriving DecidableEq, Repr

namespace Actuator

/-- The command byte. -/
def code : Actuator → UInt8
  | fuelPumpOn => 0x11
  | fuelPumpOff => 0x01
  | ptcRelayOn => 0x12
  | ptcRelayOff => 0x02
  | acRelayOn => 0x13
  | acRelayOff => 0x03
  | testInjectors => 0xF7
  | fireCoil => 0xF8
  | openIac => 0xFE
  | closeIac => 0xFD

/-- What the command does, in words. -/
def name : Actuator → String
  | fuelPumpOn => "fuel pump on"
  | fuelPumpOff => "fuel pump off"
  | ptcRelayOn => "PTC relay on"
  | ptcRelayOff => "PTC relay off"
  | acRelayOn => "A/C relay on"
  | acRelayOff => "A/C relay off"
  | testInjectors => "test injectors"
  | fireCoil => "fire coil"
  | openIac => "open IAC"
  | closeIac => "close IAC"

end Actuator

/-- A relay is switched on, held, and switched off. -/
inductive Relay where
  | ptc
  | fuelPump
  | airCon
  deriving DecidableEq, Repr

namespace Relay

def on : Relay → Actuator
  | ptc => .ptcRelayOn
  | fuelPump => .fuelPumpOn
  | airCon => .acRelayOn

def off : Relay → Actuator
  | ptc => .ptcRelayOff
  | fuelPump => .fuelPumpOff
  | airCon => .acRelayOff

end Relay
end MemsProbe
