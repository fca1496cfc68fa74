/-
The actuator tests.

The idle air control valve is driven by repeating one command: closing goes
on until the ECU has often enough answered zero, opening until it answers
that the valve is open. Nothing bounds either loop but the answers, a
failing command and the user, so both are given a number of rounds. A relay
is switched on, held for two seconds and switched off, whatever the user
asks in between; it is only switched off if switching it on went well.
-/
import MemsProbe.Client
import MemsProbe.Outcome

namespace MemsProbe

/-- What an actuator test did. -/
structure ActuationReport where
  /-- The last command sent. -/
  actuator : Actuator
  /-- Commands carried out. Below 2 ^ 32 this is what a count of 32 bits comes
  to. -/
  attempts : Nat
  /-- What the last of them was answered with. -/
  readback : UInt8
  deriving DecidableEq, Repr

namespace Actuation

/-- Zero answers to wait for when closing, unless told otherwise. -/
def defaultCloseLimit : UInt8 := 80

/-- The least answer of an open valve. -/
def openThreshold : UInt8 := 0xB4

/-- Milliseconds that a relay is held. -/
def relayHold : Nat := 2000

variable {σ : Type} [Line σ]

/-- Zero answers still to wait for after an answer. -/
def stillToWait (remaining : Nat) (readback : UInt8) : Nat :=
  if readback = 0 then remaining - 1 else remaining

/-- Closes on, after some attempts. -/
def closeFrom : (rounds remaining attempts : Nat) → Client σ → Outcome ActuationReport × Client σ
  | 0, _, _, c => (.unfinished, c)
  | rounds + 1, remaining, attempts, c =>
    if c.cancelled then (.failed .cancelled, c)
    else
      match c.testActuator .closeIac with
      | (.error e, c) => (.failed e, c)
      | (.ok readback, c) =>
        if stillToWait remaining readback = 0 then
          (.done ⟨.closeIac, attempts + 1, readback⟩, c.note (.closeFinished (attempts + 1)))
        else closeFrom rounds (stillToWait remaining readback) (attempts + 1) c

/-- Sends the close command until it has been answered with zero `limit`
times. A limit of zero still sends it once. -/
def closeIac (rounds : Nat) (limit : UInt8) (c : Client σ) : Outcome ActuationReport × Client σ :=
  closeFrom rounds limit.toNat 0 c

/-- Opens on, after some attempts. -/
def openFrom : (rounds attempts : Nat) → Client σ → Outcome ActuationReport × Client σ
  | 0, _, c => (.unfinished, c)
  | rounds + 1, attempts, c =>
    if c.cancelled then (.failed .cancelled, c.note (.openCancelled attempts))
    else
      match c.testActuator .openIac with
      | (.error e, c) => (.failed e, c)
      | (.ok readback, c) =>
        if openThreshold ≤ readback then
          (.done ⟨.openIac, attempts + 1, readback⟩, c.note (.openReached readback (attempts + 1)))
        else openFrom rounds (attempts + 1) c

/-- Sends the open command until the valve answers that it is open. -/
def openIac (rounds : Nat) (c : Client σ) : Outcome ActuationReport × Client σ :=
  openFrom rounds 0 c

/-- Sends one command. -/
def singleShot (actuator : Actuator) (c : Client σ) : Except Failure ActuationReport × Client σ :=
  match c.testActuator actuator with
  | (.error e, c) => (.error e, c)
  | (.ok readback, c) => (.ok ⟨actuator, 1, readback⟩, c)

/-- Switches a relay on, holds it and switches it off. -/
def toggleRelay (relay : Relay) (c : Client σ) : Except Failure ActuationReport × Client σ :=
  match c.testActuator relay.on with
  | (.error e, c) => (.error e, c)
  | (.ok _, c) =>
    match (c.pause relayHold).testActuator relay.off with
    | (.error e, c) => (.error e, c)
    | (.ok readback, c) => (.ok ⟨relay.off, 2, readback⟩, c)

end Actuation
end MemsProbe
