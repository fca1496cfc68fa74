/-
A reading as a report for people and as one line of JSON.

Both list the same twelve values in the same order. The report gives the
gauges six decimals; JSON gives them the fewest that read back.
-/
import MemsProbe.Binary32.Text
import MemsProbe.Reading

namespace MemsProbe.Reading

/-- Decimals of a gauge in the report. -/
def reportDecimals : Nat := 6

def gaugeText (x : Binary32) : String :=
  x.fixed reportDecimals

/-- One for a closed switch. -/
def switchText (on : Bool) : String :=
  if on then "1" else "0"

/-- The rows of the report, label and value. -/
def reportRows (r : Reading) : List (String × String) :=
  [("RPM", r.engineRpm.repr),
   ("Coolant (deg F)", r.coolantTemp.repr),
   ("Ambient (deg F)", r.ambientTemp.repr),
   ("Intake air (deg F)", r.intakeAirTemp.repr),
   ("Fuel temp (deg F)", r.fuelTemp.repr),
   ("MAP (kPa)", gaugeText r.manifoldPressure),
   ("Main voltage", gaugeText r.batteryVoltage),
   ("Throttle pot voltage", gaugeText r.throttlePotVoltage),
   ("Idle switch", switchText r.idleSwitch),
   ("Park/neutral switch", switchText r.parkNeutralSwitch),
   ("Fault codes", r.faultCodes.repr),
   ("IAC position", r.iacPosition.toNat.repr)]

/-- A row of the report on a line of its own. -/
def rowText (row : String × String) : String :=
  row.1 ++ ": " ++ row.2 ++ "\n"

/-- The report, closed by a rule without a line end. -/
def report (r : Reading) : String :=
  String.join (r.reportRows.map rowText) ++ "-------------"

def boolText (b : Bool) : String :=
  if b then "true" else "false"

/-- The members of the JSON object, name and value. -/
def jsonMembers (r : Reading) : List (String × String) :=
  [("engine_rpm", r.engineRpm.repr),
   ("coolant_temp_f", r.coolantTemp.repr),
   ("ambient_temp_f", r.ambientTemp.repr),
   ("intake_air_temp_f", r.intakeAirTemp.repr),
   ("fuel_temp_f", r.fuelTemp.repr),
   ("map_kpa", r.manifoldPressure.shortest),
   ("battery_voltage", r.batteryVoltage.shortest),
   ("throttle_pot_voltage", r.throttlePotVoltage.shortest),
   ("idle_switch", boolText r.idleSwitch),
   ("park_neutral_switch", boolText r.parkNeutralSwitch),
   ("fault_codes", r.faultCodes.repr),
   ("iac_position", r.iacPosition.toNat.repr)]

/-- A member as it stands in an object; the name needs no escapes. -/
def memberText (member : String × String) : String :=
  "\"" ++ member.1 ++ "\":" ++ member.2

/-- An object without blanks. -/
def objectText (members : List (String × String)) : String :=
  "\x7b" ++ ",".intercalate (members.map memberText) ++ "\x7d"

/-- The reading as one JSON object without blanks. -/
def json (r : Reading) : String :=
  objectText r.jsonMembers

end MemsProbe.Reading
