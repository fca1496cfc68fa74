/-
The interactive console: one command byte in, whatever comes back out.

A reply has no fixed length here. It ends with the first silence, and it is
read to that end even when the buffer is full, so that nothing of it is
left on the line for the next command. A fault on the line, or the user's
wish to stop, ends it early; what had arrived is kept and shown. The user
is told of every mishap and the console carries on: only a failure to write
to the user ends it, or a line of input that is not text.
-/
import MemsProbe.Console.CommandByte
import MemsProbe.Console.ResponseBuffer
import MemsProbe.Link
import MemsProbe.Outcome
import MemsProbe.Sink
import MemsProbe.Text.Lines

namespace MemsProbe

structure ConsoleSettings where
  policy : HexPolicy := .strict
  /-- Milliseconds of silence that end a reply; without a number the line
  keeps the timeout it has. -/
  inactivityTimeout : Option Nat := some 200
  /-- Bytes of a reply that are kept. -/
  responseCapacity : Nat := 16384
  deriving DecidableEq, Repr

structure Console (σ : Type) where
  link : Link σ
  policy : HexPolicy
  /-- The reply to the last command. -/
  response : ResponseBuffer

namespace Console

variable {σ ω : Type} [Line σ] [Sink ω]

/-- A console over a link, or the failure together with the link. -/
def start (settings : ConsoleSettings) (l : Link σ) : Except (Failure × Link σ) (Console σ) :=
  match ResponseBuffer.allocate settings.responseCapacity with
  | .error e => .error (e, l)
  | .ok response =>
    match settings.inactivityTimeout with
    | none => .ok ⟨l, settings.policy, response⟩
    | some milliseconds =>
      match l.setTimeout milliseconds with
      | (.error e, l) => .error (e, l)
      | (.ok (), l) => .ok ⟨l, settings.policy, response⟩

/-! ## One exchange -/

/-- Sends a command byte, forgetting the last reply. -/
def send (command : UInt8) (c : Console σ) : Except Failure Unit × Console σ :=
  match c.link.writeAll [command] with
  | (.error e, link) => (.error e, { c with link, response := c.response.clear })
  | (.ok (), link) =>
    (.ok (), { c with link := link.note (.sent command), response := c.response.clear })

/-- Reads a reply to its end without keeping it, after some bytes that were
not kept either; the answer is how many there were. -/
def discardRest : (rounds discarded : Nat) → Link σ → Outcome Nat × Link σ
  | 0, _, l => (.unfinished, l)
  | rounds + 1, discarded, l =>
    if l.cancelled then (.failed .cancelled, l)
    else
      match l.read 1 with
      | (.error e, l) => (.failed e, l)
      | (.ok ⟨[], _⟩, l) => (.done discarded, l)
      | (.ok ⟨_ :: _, _⟩, l) => discardRest rounds (discarded + 1) l

/-- Goes on with a reply whose first byte beyond a buffer of the given
capacity was just read. -/
def overflow (rounds capacity : Nat) (l : Link σ) : Outcome Nat × Link σ :=
  match discardRest rounds 1 l with
  | (.done discarded, l) =>
    (.failed (.overflow capacity discarded), l.note (.replyExceeded capacity discarded))
  | other => other

/-- Reads a reply to its end into a buffer; the answer is how many bytes are
in it then. -/
def receive : (rounds : Nat) → ResponseBuffer → Link σ → Outcome Nat × ResponseBuffer × Link σ
  | 0, r, l => (.unfinished, r, l)
  | rounds + 1, r, l =>
    if l.cancelled then (.failed .cancelled, r, l)
    else
      match l.read 1 with
      | (.error e, l) => (.failed e, r, l)
      | (.ok ⟨[], _⟩, l) => (.done r.size, r, l)
      | (.ok ⟨b :: _, _⟩, l) =>
        if r.isFull then
          match overflow rounds r.capacity l with
          | (answer, l) => (answer, r, l)
        else
          match r.push b with
          | .error e => (.failed e, r, l)
          | .ok r => receive rounds r l

/-- A byte is kept if there is room for it; the buffer is asked first, so it
never refuses one. -/
theorem receive_byte {rounds : Nat} {r : ResponseBuffer} {l l' : Link σ} {b : UInt8}
    {more : List UInt8} {fits} (hc : ¬ l.cancelled = true)
    (hr : l.read 1 = (.ok ⟨b :: more, fits⟩, l')) :
    receive (rounds + 1) r l =
      if room : r.size < r.capacity then receive rounds (r.add b room) l'
      else ((overflow rounds r.capacity l').1, r, (overflow rounds r.capacity l').2) := by
  rw [receive, if_neg hc, hr]
  dsimp only
  by_cases hfull : r.isFull = true
  · rw [if_pos hfull, dif_neg (ResponseBuffer.isFull_iff.1 hfull)]
  · obtain ⟨room, hpush⟩ := ResponseBuffer.push_of_not_isFull b hfull
    rw [if_neg hfull, hpush, dif_pos room]

/-- Reads a reply to its end; the answer is its length. -/
def drain (rounds : Nat) (c : Console σ) : Outcome Nat × Console σ :=
  match receive rounds c.response c.link with
  | (answer, response, link) => (answer, { c with link, response })

/-- Sends a command byte and reads the reply to its end. -/
def exchange (rounds : Nat) (command : UInt8) (c : Console σ) : Outcome Nat × Console σ :=
  match c.send command with
  | (.error e, c) => (.failed e, c)
  | (.ok (), c) => c.drain rounds

/-! ## One line of input -/

/-- What a line of input led to. -/
inductive Step where
  | quit
  | blank
  /-- The line was no command byte. -/
  | rejected
  /-- The command byte did not go out. -/
  | writeFailed (sent : UInt8)
  /-- The command byte went out; so many bytes of the reply were kept. -/
  | exchanged (sent : UInt8) (received : Nat)
  deriving DecidableEq, Repr

def promptText : String := "> "

/-- The line that tells of a failure. -/
def failureText (e : Failure) : String :=
  "Error: " ++ e.message ++ ".\n"

/-- The line that tells why a line of input was no command byte. -/
def rejectionText : Failure → String
  | .outOfRange _ => "Error: command must be between 0x00 and 0xFF.\n"
  | e => failureText e

def writeFailedText : String :=
  "Error: failed to write command byte to serial port.\n"

/-- What is shown of the bytes kept, when the reading of them ended in the
given failure or in none. -/
def responseText (response : List UInt8) (failure : Option Failure) : String :=
  if !response.isEmpty then Hex.dump response
  else if failure.isNone then "No response from ECU.\n"
  else ""

/-- Shows a text and then, if there is one, the failure that ended the
reply. -/
def tell (command : UInt8) (text : String) (failure : Option Failure) (c : Console σ) (out : ω) :
    Except Failure Unit × Console σ × ω :=
  match Sink.print text out with
  | (.error e, out) => (.error e, c, out)
  | (.ok (), out) =>
    match failure with
    | none => (.ok (), c, out)
    | some cause =>
      let (answer, out) := Sink.print (failureText cause) out
      (answer, { c with link := c.link.note (.replyCutShort command cause) }, out)

/-- Sends a command byte and shows the reply. -/
def exchangeAndTell (rounds : Nat) (command : UInt8) (c : Console σ) (out : ω) :
    Outcome Step × Console σ × ω :=
  match c.send command with
  | (.error cause, c) =>
    let c := { c with link := c.link.note (.writeFailed command cause) }
    match Sink.print writeFailedText out with
    | (.error e, out) => (.failed e, c, out)
    | (.ok (), out) => (.done (.writeFailed command), c, out)
  | (.ok (), c) =>
    match c.drain rounds with
    | (.unfinished, c) => (.unfinished, c, out)
    | (drained, c) =>
      let text := responseText c.response.bytes.toList drained.failure?
      match c.tell command text drained.failure? out with
      | (.error e, c, out) => (.failed e, c, out)
      | (.ok (), c, out) => (.done (.exchanged command c.response.size), c, out)

/-- Closes what a line led to with the next prompt. -/
def prompt : Outcome Step × Console σ × ω → Outcome Step × Console σ × ω
  | (.done step, c, out) =>
    match Sink.emit promptText out with
    | (.error e, out) => (.failed e, c, out)
    | (.ok (), out) => (.done step, c, out)
  | other => other

/-- Handles a line that is neither blank nor a wish to leave. -/
def command (rounds : Nat) (text : String) (c : Console σ) (out : ω) :
    Outcome Step × Console σ × ω :=
  match CommandByte.parse c.policy text with
  | .ok b => c.exchangeAndTell rounds b out
  | .error cause =>
    match Sink.print (rejectionText cause) out with
    | (.error e, out) => (.failed e, c, out)
    | (.ok (), out) => (.done .rejected, c, out)

/-- Handles a line of input. -/
def step (rounds : Nat) (line : String) (c : Console σ) (out : ω) :
    Outcome Step × Console σ × ω :=
  let text := Text.trim line.toList
  if text = ['q'] ∨ text = ['q', 'u', 'i', 't'] then (.done .quit, c, out)
  else if text.isEmpty then prompt (.done .blank, c, out)
  else prompt (c.command rounds (String.ofList text) out)

/-! ## A session -/

/-- What went over the line in a session. -/
structure Summary where
  /-- Command bytes that went out. -/
  commandsSent : Nat := 0
  /-- Bytes of the replies that were kept. -/
  bytesReceived : Nat := 0
  deriving DecidableEq, Repr

def Summary.add (s : Summary) : Step → Summary
  | .exchanged _ received => ⟨s.commandsSent + 1, s.bytesReceived + received⟩
  | _ => s

def bannerText : String :=
  "Enter a command (in hex) or 'quit'.\n"

/-- The end of a session. -/
def close (summary : Summary) (c : Console σ) : Console σ :=
  { c with link := c.link.note (.consoleClosed summary.commandsSent summary.bytesReceived) }

/-- The failure of a line that is not text. -/
def notText : Failure :=
  .io "stream did not contain valid UTF-8"

/-- Waits for the user to type a line. -/
def awaitLine (c : Console σ) : Console σ :=
  { c with link := c.link.idle }

/-- Handles lines until one asks to leave, the user asks to stop, or there
are no more. A wish to stop that comes while a line is typed is found out
when the line has been handled, or at the first read of a reply to it. -/
def runLines (rounds : Nat) :
    List (List UInt8) → Summary → Console σ → ω → Outcome Summary × Console σ × ω
  | [], summary, c, out => (.done summary, c.close summary, out)
  | line :: rest, summary, c, out =>
    if c.link.cancelled then (.done summary, c.close summary, out)
    else
      let c := c.awaitLine
      match Text.decode? line with
      | none => (.failed notText, c, out)
      | some text =>
        match c.step rounds text out with
        | (.failed e, c, out) => (.failed e, c, out)
        | (.unfinished, c, out) => (.unfinished, c, out)
        | (.done .quit, c, out) => (.done summary, c.close summary, out)
        | (.done step, c, out) => runLines rounds rest (summary.add step) c out

/-- A session over all lines of the input. -/
def run (rounds : Nat) (input : List UInt8) (c : Console σ) (out : ω) :
    Outcome Summary × Console σ × ω :=
  match Sink.print bannerText out with
  | (.error e, out) => (.failed e, c, out)
  | (.ok (), out) =>
    match Sink.emit promptText out with
    | (.error e, out) => (.failed e, c, out)
    | (.ok (), out) => runLines rounds (Text.lines input) {} c out

end Console
end MemsProbe
