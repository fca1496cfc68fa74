/-
The operations of the client, as scripts of exchanges.

Whatever an operation makes of the replies, on the line it does no more
than exchange the commands of a script fixed beforehand, one after the
other, until one of them fails (`Pursues`). `perform_pursues` says this of
each operation, and what its answer is in either case. Facts about whole
operations are proved of scripts, by one induction, and not operation by
operation.
-/
import MemsProbe.Proofs.Exchange

namespace MemsProbe

/-- A command with the length of the reply to it. -/
structure Wire.Request where
  command : UInt8
  length : Nat
  known : Wire.replyLength? command = some length

/-- A whole reply, and the command that it is a reply to. -/
structure Wire.Reply where
  command : UInt8
  bytes : List UInt8
  whole : Wire.replyLength? command = some bytes.length
  deriving DecidableEq

/-- The reply to a request. -/
def Wire.Request.reply (r : Wire.Request) (bytes : Vector UInt8 r.length) : Wire.Reply :=
  ⟨r.command, bytes.toList, by simpa using r.known⟩

/-- What can be asked of the client. -/
inductive Operation where
  | initLink
  | readData
  | readRaw
  | readIacPosition
  | testActuator (actuator : Actuator)
  deriving DecidableEq

/-- What an operation finds out. -/
inductive Finding where
  | identity (id : Vector UInt8 Client.identityLength)
  | reading (reading : Reading)
  | frames (frame80 : Frame80) (frame7D : Frame7D)
  | position (position : UInt8)
  | readback (readback : UInt8)
  deriving DecidableEq

namespace Operation

/-- The commands of an operation when all goes well. -/
def script : Operation → List Wire.Request
  | initLink => [⟨Wire.wakeFirst, 0, rfl⟩, ⟨Wire.wakeSecond, 0, rfl⟩, ⟨Wire.identify, Client.identityLength, rfl⟩]
  | readData => [⟨Wire.requestFrame80, Frame80.length, rfl⟩]
  | readRaw => [⟨Wire.requestFrame80, Frame80.length, rfl⟩, ⟨Wire.requestFrame7D, Frame7D.length, rfl⟩]
  | readIacPosition => [⟨Wire.requestIacPosition, 1, rfl⟩]
  | testActuator actuator => [⟨actuator.code, 1, actuator.replyLength?_code⟩]

def commands (op : Operation) : List UInt8 :=
  op.script.map (·.command)

/-- What an operation takes the bytes of its replies to say. -/
inductive Reads : Operation → List (List UInt8) → Finding → Prop
  | initLink (id : Vector UInt8 Client.identityLength) : Reads initLink [[], [], id.toList] (.identity id)
  | readData (frame : Frame80) : Reads readData [frame.toList] (.reading frame.reading)
  | readRaw (frame80 : Frame80) (frame7D : Frame7D) :
      Reads readRaw [frame80.toList, frame7D.toList] (.frames frame80 frame7D)
  | readIacPosition (b : UInt8) : Reads readIacPosition [[b]] (.position b)
  | testActuator (a : Actuator) (b : UInt8) : Reads (testActuator a) [[b]] (.readback b)

/-- The replies are to the commands of the operation, and this is what they
say. -/
def Yields (op : Operation) (replies : List Wire.Reply) (found : Finding) : Prop :=
  replies.map (·.command) = op.commands ∧ op.Reads (replies.map (·.bytes)) found

/-- How an operation tells of the failure of one of its commands. A step of
the wake-up gives its command and the message; an actuator that was not
answered, or with another echo, did not carry out its command; all other
failures are passed on. -/
def failure : Operation → UInt8 → Failure → Failure
  | initLink, command, e => .linkInit (Hex.byte command ++ ": " ++ e.message)
  | testActuator actuator, _, .timeout _ => .commandFailed actuator.name
  | testActuator actuator, _, .unexpectedEcho _ _ => .commandFailed actuator.name
  | testActuator _, _, e | readData, _, e | readRaw, _, e | readIacPosition, _, e => e

end Operation

namespace Client

variable {σ : Type}

/-- The clients differ at most in their notes. -/
structure Alike (c c' : Client σ) : Prop where
  line : c'.link.line = c.link.line
  calls : c'.link.calls = c.link.calls
  connected : c'.connected = c.connected

theorem Alike.refl (c : Client σ) : Alike c c :=
  ⟨rfl, rfl, rfl⟩

theorem Alike.note (c : Client σ) (n : Note) : Alike c (c.note n) :=
  ⟨rfl, rfl, rfl⟩

theorem Alike.checkLength (c : Client σ) (request : UInt8) {n : Nat} (frame : Vector UInt8 n) :
    Alike c (c.checkLength request frame) := by
  simp only [Client.checkLength]
  split
  · split
    · exact .refl c
    · exact .note c _
  · exact .refl c

variable [Line σ]

/-- Carries out an operation. -/
def perform : Operation → Client σ → Except Failure Finding × Client σ
  | .initLink, c =>
    match c.initLink with
    | (answer, c) => (answer.map .identity, c)
  | .readData, c =>
    match c.readData with
    | (answer, c) => (answer.map .reading, c)
  | .readRaw, c =>
    match c.readRaw with
    | (answer, c) => (answer.map fun (frame80, frame7D) => .frames frame80 frame7D, c)
  | .readIacPosition, c =>
    match c.readIacPosition with
    | (answer, c) => (answer.map .position, c)
  | .testActuator actuator, c =>
    match c.testActuator actuator with
    | (answer, c) => (answer.map .readback, c)

/-- What came of a script: its replies, or the command that failed. -/
abbrev Pursued := Except (UInt8 × Failure) (List Wire.Reply)

/-- The requests of the script are exchanged in turn until one fails; notes
may be taken after each exchange. -/
inductive Pursues : List Wire.Request → Client σ → Pursued → Client σ → Prop
  | done (c : Client σ) : Pursues [] c (.ok []) c
  | failed {r : Wire.Request} {c c₁ c' : Client σ} : c.exchange r.command r.length = (.error e, c₁) → Alike c₁ c' →
      Pursues (r :: script) c (.error (r.command, e)) c'
  | next {r : Wire.Request} {bytes : Vector UInt8 r.length} {outcome : Pursued} {c c₁ c₂ c' : Client σ} :
      c.exchange r.command r.length = (.ok bytes, c₁) → Alike c₁ c₂ → Pursues script c₂ outcome c' →
      Pursues (r :: script) c (outcome.map (r.reply bytes :: ·)) c'

variable {c c₁ c' : Client σ}

/-- A script of one request that is answered. -/
theorem Pursues.last {r : Wire.Request} {bytes : Vector UInt8 r.length}
    (h : c.exchange r.command r.length = (.ok bytes, c₁)) (ha : Alike c₁ c') :
    Pursues [r] c (.ok [r.reply bytes]) c' :=
  show Pursues [r] c (Except.map (r.reply bytes :: ·) (.ok [])) c' from .next h ha (.done c')

theorem wakeStep_exchange {b : UInt8} {n : Nat} {answer} (h : c.wakeStep b n = (answer, c')) :
    (∀ v, answer = .ok v → c.exchange b n = (.ok v, c')) ∧
      ∀ e, answer = .error e → ∃ e', c.exchange b n = (.error e', c') ∧ e = Operation.initLink.failure b e' := by
  unfold wakeStep at h
  split at h
  next e c₁ he =>
    obtain ⟨rfl, rfl⟩ := Prod.mk.inj h
    refine ⟨nofun, fun f hf => ?_⟩
    obtain rfl := Except.error.inj hf
    exact ⟨e, he, rfl⟩
  next reply c₁ he =>
    obtain ⟨rfl, rfl⟩ := Prod.mk.inj h
    refine ⟨fun v hv => ?_, nofun⟩
    obtain rfl := Except.ok.inj hv
    exact he

theorem readFrame_exchange {b : UInt8} {n : Nat} {answer} (h : c.readFrame b n = (answer, c')) :
    ∃ c₁, c.exchange b n = (answer, c₁) ∧ Alike c₁ c' := by
  unfold readFrame at h
  split at h
  next e c₁ he =>
    obtain ⟨rfl, rfl⟩ := Prod.mk.inj h
    exact ⟨c₁, he, .refl c₁⟩
  next frame c₁ he =>
    obtain ⟨rfl, rfl⟩ := Prod.mk.inj h
    exact ⟨c₁, he, .checkLength c₁ b frame⟩

/-- What the answer of an operation has to do with what came of its script. -/
def Tells (op : Operation) (outcome : Pursued) (answer : Except Failure Finding) : Prop :=
  match outcome with
  | .ok replies => ∃ found, answer = .ok found ∧ op.Yields replies found
  | .error (command, e) => answer = .error (op.failure command e)

theorem initLink_pursues {answer} (h : c.initLink = (answer, c')) :
    ∃ outcome, Pursues Operation.initLink.script c outcome c' ∧
      Tells .initLink outcome (answer.map .identity) := by
  unfold initLink at h
  split at h
  next e c₁ h₁ =>
    obtain ⟨rfl, rfl⟩ := Prod.mk.inj h
    obtain ⟨e', he, rfl⟩ := (wakeStep_exchange h₁).2 e rfl
    exact ⟨_, .failed he (.refl c₁), rfl⟩
  next reply₁ c₁ h₁ =>
  have h₁ := (wakeStep_exchange h₁).1 reply₁ rfl
  split at h
  next e c₂ h₂ =>
    obtain ⟨rfl, rfl⟩ := Prod.mk.inj h
    obtain ⟨e', he, rfl⟩ := (wakeStep_exchange h₂).2 e rfl
    exact ⟨_, .next h₁ (.refl c₁) (.failed he (.refl c₂)), rfl⟩
  next reply₂ c₂ h₂ =>
  have h₂ := (wakeStep_exchange h₂).1 reply₂ rfl
  split at h
  next e c₃ h₃ =>
    obtain ⟨rfl, rfl⟩ := Prod.mk.inj h
    obtain ⟨e', he, rfl⟩ := (wakeStep_exchange h₃).2 e rfl
    exact ⟨_, .next h₁ (.refl c₁) (.next h₂ (.refl c₂) (.failed he (.refl c₃))), rfl⟩
  next id c₃ h₃ =>
    obtain ⟨rfl, rfl⟩ := Prod.mk.inj h
    have h₃ := (wakeStep_exchange h₃).1 id rfl
    refine ⟨_, .next h₁ (.refl c₁) (.next h₂ (.refl c₂) (.last h₃ (.note c₃ _))), _, rfl, rfl, ?_⟩
    simpa [Wire.Request.reply, toList_of_zero] using Operation.Reads.initLink id

theorem readData_pursues {answer} (h : c.readData = (answer, c')) :
    ∃ outcome, Pursues Operation.readData.script c outcome c' ∧
      Tells .readData outcome (answer.map .reading) := by
  unfold readData at h
  split at h
  next e c₁ hr =>
    obtain ⟨rfl, rfl⟩ := Prod.mk.inj h
    obtain ⟨c₂, he, ha⟩ := readFrame_exchange hr
    exact ⟨_, .failed he ha, rfl⟩
  next frame c₁ hr =>
    obtain ⟨rfl, rfl⟩ := Prod.mk.inj h
    obtain ⟨c₂, he, ha⟩ := readFrame_exchange hr
    exact ⟨_, .last he ha, _, rfl, rfl, .readData frame⟩

theorem readRaw_pursues {answer} (h : c.readRaw = (answer, c')) :
    ∃ outcome, Pursues Operation.readRaw.script c outcome c' ∧
      Tells .readRaw outcome (answer.map fun (frame80, frame7D) => .frames frame80 frame7D) := by
  unfold readRaw at h
  split at h
  next e c₁ hr =>
    obtain ⟨rfl, rfl⟩ := Prod.mk.inj h
    obtain ⟨c₂, he, ha⟩ := readFrame_exchange hr
    exact ⟨_, .failed he ha, rfl⟩
  next frame80 c₁ hr =>
  obtain ⟨c₂, he, ha⟩ := readFrame_exchange hr
  split at h
  next e c₃ hr' =>
    obtain ⟨rfl, rfl⟩ := Prod.mk.inj h
    obtain ⟨c₄, he', ha'⟩ := readFrame_exchange hr'
    exact ⟨_, .next he ha (.failed he' ha'), rfl⟩
  next frame7D c₃ hr' =>
    obtain ⟨rfl, rfl⟩ := Prod.mk.inj h
    obtain ⟨c₄, he', ha'⟩ := readFrame_exchange hr'
    exact ⟨_, .next he ha (.last he' ha'), _, rfl, rfl, .readRaw frame80 frame7D⟩

theorem readIacPosition_pursues {answer} (h : c.readIacPosition = (answer, c')) :
    ∃ outcome, Pursues Operation.readIacPosition.script c outcome c' ∧
      Tells .readIacPosition outcome (answer.map .position) := by
  unfold readIacPosition at h
  split at h
  next e c₁ he =>
    obtain ⟨rfl, rfl⟩ := Prod.mk.inj h
    exact ⟨_, .failed he (.refl c₁), rfl⟩
  next reply c₁ he =>
    obtain ⟨rfl, rfl⟩ := Prod.mk.inj h
    refine ⟨_, .last he (.refl c₁), _, rfl, rfl, ?_⟩
    simpa [Wire.Request.reply, toList_of_one] using Operation.Reads.readIacPosition reply[0]

theorem actuatorFailure_eq (actuator : Actuator) (e : Failure) :
    actuatorFailure actuator e = (Operation.testActuator actuator).failure actuator.code e := by
  cases e <;> rfl

theorem testActuator_pursues {actuator : Actuator} {answer} (h : c.testActuator actuator = (answer, c')) :
    ∃ outcome, Pursues (Operation.testActuator actuator).script c outcome c' ∧
      Tells (.testActuator actuator) outcome (answer.map .readback) := by
  unfold testActuator at h
  split at h
  next e c₁ he =>
    obtain ⟨rfl, rfl⟩ := Prod.mk.inj h
    exact ⟨_, .failed he (.note c₁ _), congrArg Except.error (actuatorFailure_eq actuator e)⟩
  next reply c₁ he =>
    obtain ⟨rfl, rfl⟩ := Prod.mk.inj h
    refine ⟨_, .last he (.refl c₁), _, rfl, rfl, ?_⟩
    simpa [Wire.Request.reply, toList_of_one] using Operation.Reads.testActuator actuator reply[0]

/-- Every operation pursues its script, and tells what came of it. -/
theorem perform_pursues {op : Operation} {answer} (h : c.perform op = (answer, c')) :
    ∃ outcome, Pursues op.script c outcome c' ∧ Tells op outcome answer := by
  cases op with
  | initLink =>
    obtain ⟨rfl, rfl⟩ := Prod.mk.inj h
    exact initLink_pursues (Prod.eta c.initLink).symm
  | readData =>
    obtain ⟨rfl, rfl⟩ := Prod.mk.inj h
    exact readData_pursues (Prod.eta c.readData).symm
  | readRaw =>
    obtain ⟨rfl, rfl⟩ := Prod.mk.inj h
    exact readRaw_pursues (Prod.eta c.readRaw).symm
  | readIacPosition =>
    obtain ⟨rfl, rfl⟩ := Prod.mk.inj h
    exact readIacPosition_pursues (Prod.eta c.readIacPosition).symm
  | testActuator actuator =>
    obtain ⟨rfl, rfl⟩ := Prod.mk.inj h
    exact testActuator_pursues (Prod.eta (c.testActuator actuator)).symm

end Client
end MemsProbe
