/-
How bytes are split into pieces makes no difference to the client.

A queue says which bytes come in which piece, and a line may give a piece
out over several reads. What is left when the pieces are forgotten is the
stream: bytes, silences and faults in order. `Link.readOn_collects` says
that reading until all bytes are there depends on the stream alone, since
it comes to the same as taking the stream byte by byte (`collect`). So two
scripted lines whose queues are the same once neighbouring pieces are
merged cannot be told apart by any errand (`attendAll_rechunked`), whether
it succeeds or fails.
-/
import Mathlib
import MemsProbe.Proofs.Errands
import MemsProbe.Proofs.Leads
import MemsProbe.Proofs.Record

namespace MemsProbe

/-! ## Queues as streams -/

/-- What a reader meets in a queue, one at a time. -/
inductive Moment where
  | byte (b : UInt8)
  | silence
  | fault (f : Failure)

namespace Arrival

def moments : Arrival → List Moment
  | .piece [] => [.silence]
  | .piece (b :: bytes) => (b :: bytes).map .byte
  | .fault f => [.fault f]

/-- An arrival followed by others. A piece is merged with the piece after it,
unless one of them is a silence. -/
def followedBy : Arrival → List Arrival → List Arrival
  | .piece (b :: bytes), .piece (c :: more) :: rest => .piece (b :: bytes ++ c :: more) :: rest
  | a, rest => a :: rest

end Arrival

/-- The queue with its neighbouring pieces merged. -/
def merged (queue : List Arrival) : List Arrival :=
  queue.foldr Arrival.followedBy []

def stream (queue : List Arrival) : List Moment :=
  queue.flatMap Arrival.moments

theorem stream_append (queue queue' : List Arrival) : stream (queue ++ queue') = stream queue ++ stream queue' :=
  List.flatMap_append

theorem stream_followedBy (a : Arrival) (rest : List Arrival) :
    stream (a.followedBy rest) = a.moments ++ stream rest := by
  unfold Arrival.followedBy
  split
  · simp [stream, Arrival.moments]
  · simp [stream]

theorem stream_merged (queue : List Arrival) : stream (merged queue) = stream queue := by
  induction queue with
  | nil => rfl
  | cons a queue ih =>
    have hstep : stream (merged (a :: queue)) = a.moments ++ stream (merged queue) :=
      stream_followedBy a (merged queue)
    rw [hstep, ih]
    rfl

/-- The arrival of one moment. -/
def Moment.arrival : Moment → Arrival
  | byte b => .piece [b]
  | silence => .piece []
  | fault f => .fault f

/-- A piece is merged byte by byte as it is merged whole. -/
theorem foldr_bytes (b : UInt8) (bytes : List UInt8) (rest : List Arrival) :
    ((b :: bytes).map Moment.byte).foldr (fun m => m.arrival.followedBy) rest =
      (Arrival.piece (b :: bytes)).followedBy rest := by
  induction bytes generalizing b with
  | nil => rfl
  | cons c bytes ih =>
    have hrest := ih c
    simp only [List.map_cons, List.foldr_cons] at hrest ⊢
    rw [hrest]
    cases rest with
    | nil => rfl
    | cons a rest =>
      rcases a with (_ | ⟨d, more⟩) | f <;> rfl

theorem foldr_moments (a : Arrival) (rest : List Arrival) :
    a.moments.foldr (fun m => m.arrival.followedBy) rest = a.followedBy rest := by
  rcases a with (_ | ⟨b, bytes⟩) | f
  · rfl
  · exact foldr_bytes b bytes rest
  · rfl

theorem merged_eq_foldr_stream (queue : List Arrival) :
    merged queue = (stream queue).foldr (fun m => m.arrival.followedBy) [] := by
  induction queue with
  | nil => rfl
  | cons a queue ih =>
    have hstream : stream (a :: queue) = a.moments ++ stream queue := rfl
    rw [hstream, List.foldr_append, ← ih, foldr_moments]
    rfl

/-- Queues are the same when merged just when their streams are the same. -/
theorem merged_eq_merged_iff {queue queue' : List Arrival} :
    merged queue = merged queue' ↔ stream queue = stream queue' := by
  constructor
  · intro h
    rw [← stream_merged queue, h, stream_merged]
  · intro h
    rw [merged_eq_foldr_stream, h, ← merged_eq_foldr_stream]

theorem merged_append {queue queue' next next' : List Arrival} (h : merged queue = merged queue')
    (h' : merged next = merged next') : merged (queue ++ next) = merged (queue' ++ next') := by
  rw [merged_eq_merged_iff] at h h' ⊢
  rw [stream_append, stream_append, h, h']

/-! ## Reading byte by byte -/

/-- Takes so many more bytes off a stream, one at a time, after those that
have arrived. The first silence or fault ends it; past its end the stream is
silent, or repeats one byte. -/
def collect (endless : Option UInt8) (command : UInt8) (awaited : Nat) :
    Nat → List UInt8 → List Moment → Except Failure (List UInt8) × List Moment
  | 0, arrived, u => (.ok arrived, u)
  | n + 1, arrived, .byte b :: u => collect endless command awaited n (arrived ++ [b]) u
  | _ + 1, arrived, .silence :: u => (.error (.silence command arrived.length awaited), u)
  | _ + 1, _, .fault f :: u => (.error f, u)
  | n + 1, arrived, [] =>
    match endless with
    | some b => collect endless command awaited n (arrived ++ [b]) []
    | none => (.error (.silence command arrived.length awaited), [])

/-- How collecting goes on when a read has come to this and left the rest. -/
def collectAfter (endless : Option UInt8) (command : UInt8) (awaited n : Nat) (arrived : List UInt8)
    (rest : List Moment) : Heard → Except Failure (List UInt8) × List Moment
  | .error e => (.error e, rest)
  | .ok [] => (.error (.silence command arrived.length awaited), rest)
  | .ok (b :: more) =>
    collect endless command awaited (n - (b :: more).length) (arrived ++ b :: more) rest

theorem collect_bytes {endless : Option UInt8} {command : UInt8} {awaited n : Nat} {bytes : List UInt8}
    (hle : bytes.length ≤ n) (arrived : List UInt8) (u : List Moment) :
    collect endless command awaited n arrived (bytes.map .byte ++ u) =
      collect endless command awaited (n - bytes.length) (arrived ++ bytes) u := by
  induction bytes generalizing n arrived with
  | nil => simp
  | cons b bytes ih =>
    obtain ⟨n, rfl⟩ : ∃ m, n = m + 1 := ⟨n - 1, by simp only [List.length_cons] at hle; omega⟩
    simp only [List.length_cons, Nat.add_le_add_iff_right] at hle
    simp only [List.map_cons, List.cons_append, collect]
    rw [ih hle, List.length_cons, Nat.add_sub_add_right, List.append_assoc, List.singleton_append]

theorem collect_endless {b command : UInt8} {awaited n k : Nat} (hle : k ≤ n) (arrived : List UInt8) :
    collect (some b) command awaited n arrived [] =
      collect (some b) command awaited (n - k) (arrived ++ List.replicate k b) [] := by
  induction k generalizing n arrived with
  | zero => simp
  | succ k ih =>
    obtain ⟨n, rfl⟩ : ∃ m, n = m + 1 := ⟨n - 1, by omega⟩
    have hle : k ≤ n := by omega
    have hone : collect (some b) command awaited (n + 1) arrived [] =
        collect (some b) command awaited n (arrived ++ [b]) [] := rfl
    rw [hone, ih hle, Nat.add_sub_add_right, List.replicate_succ, List.append_assoc, List.singleton_append]

namespace ScriptedLine

/-- A read of this line gives out at least one byte of a piece. -/
def Flows (s : ScriptedLine) : Prop :=
  ∀ limit, s.pieceLimit = some limit → 0 < limit

/-- The lines differ at most in what is left in the queue, and in what has
no part in reading and writing. -/
structure Drains (s s' : ScriptedLine) : Prop where
  replies : s'.replies = s.replies
  writeAnswers : s'.writeAnswers = s.writeAnswers
  endless : s'.endless = s.endless
  pieceLimit : s'.pieceLimit = s.pieceLimit

variable {s s' s'' : ScriptedLine}

theorem Drains.refl (s : ScriptedLine) : Drains s s :=
  ⟨rfl, rfl, rfl, rfl⟩

theorem Drains.trans (h : Drains s s') (h' : Drains s' s'') : Drains s s'' :=
  ⟨h'.replies.trans h.replies, h'.writeAnswers.trans h.writeAnswers, h'.endless.trans h.endless,
    h'.pieceLimit.trans h.pieceLimit⟩

theorem Drains.flows (h : Drains s s') (hf : s.Flows) : s'.Flows := by
  intro limit hlimit
  rw [h.pieceLimit] at hlimit
  exact hf limit hlimit

theorem Flows.most_pos (h : s.Flows) {room : Nat} (hroom : 0 < room) : 0 < s.most room := by
  unfold most
  cases hlimit : s.pieceLimit with
  | none => simpa using hroom
  | some limit =>
    have hpos := h limit hlimit
    simp only [Option.getD_some]
    omega

theorem read_drains (s : ScriptedLine) (room : Nat) : Drains s (s.read room).2 := by
  unfold ScriptedLine.read
  split
  · exact ⟨rfl, rfl, rfl, rfl⟩
  · exact ⟨rfl, rfl, rfl, rfl⟩
  · split <;> exact ⟨rfl, rfl, rfl, rfl⟩

theorem stream_putBack (bytes : List UInt8) (rest : List Arrival) :
    stream (putBack bytes rest) = bytes.map .byte ++ stream rest := by
  cases bytes <;> rfl

/-- To collect is to read and go on collecting. -/
theorem read_collects {room : Nat} {answer} (hf : s.Flows) (hroom : 0 < room)
    (h : s.read room = (answer, s')) (command : UInt8) (awaited : Nat) (arrived : List UInt8) :
    collect s.endless command awaited room arrived (stream s.queue) =
      collectAfter s.endless command awaited room arrived (stream s'.queue) (answer.map Subtype.val) := by
  have hmost : 0 < s.most room := hf.most_pos hroom
  have hle : s.most room ≤ room := Nat.min_le_left ..
  obtain ⟨n, rfl⟩ : ∃ n, room = n + 1 := ⟨room - 1, by omega⟩
  obtain ⟨k, hk⟩ : ∃ k, s.most (n + 1) = k + 1 := ⟨s.most (n + 1) - 1, by omega⟩
  unfold ScriptedLine.read at h
  split at h
  next bytes rest hq =>
    obtain ⟨rfl, rfl⟩ := Prod.mk.inj h
    rw [hq]
    cases bytes with
    | nil => simp [stream, Arrival.moments, collect, putBack, Except.map, collectAfter]
    | cons b bytes =>
      simp only [hk, Except.map, List.take_succ_cons, List.drop_succ_cons]
      have hsplit : stream (Arrival.piece (b :: bytes) :: rest) =
          (b :: bytes.take k).map Moment.byte ++ stream (putBack (bytes.drop k) rest) := by
        rw [stream_putBack, ← List.append_assoc, ← List.map_append, List.cons_append, List.take_append_drop]
        rfl
      rw [hsplit]
      refine collect_bytes ?_ arrived _
      simp only [List.length_cons, List.length_take]
      omega
  next f rest hq =>
    obtain ⟨rfl, rfl⟩ := Prod.mk.inj h
    rw [hq]
    rfl
  next hq =>
    rw [hq]
    split at h
    next b he =>
      obtain ⟨rfl, rfl⟩ := Prod.mk.inj h
      have hqueue : s.countRead.queue = [] := hq
      have hmore : collect (some b) command awaited (n + 1) arrived [] =
          collect (some b) command awaited (n + 1 - (k + 1)) (arrived ++ List.replicate (k + 1) b) [] :=
        collect_endless (by omega) arrived
      simp only [hk, Except.map, List.replicate_succ, hqueue, he]
      simpa [List.replicate_succ, stream, collectAfter] using hmore
    next he =>
      obtain ⟨rfl, rfl⟩ := Prod.mk.inj h
      have hqueue : s.countRead.queue = [] := hq
      simp [stream, collect, he, hqueue, Except.map, collectAfter]

end ScriptedLine

/-! ## Reading on -/

/-- The calls that are no reads. -/
def withoutReads (calls : List Call) : List Call :=
  calls.filter fun
    | .read _ _ => false
    | _ => true

theorem withoutReads_append (calls calls' : List Call) :
    withoutReads (calls ++ calls') = withoutReads calls ++ withoutReads calls' :=
  List.filter_append ..

/-- To read on is to collect. -/
theorem Link.readOn_collects {l l' : Link ScriptedLine} {command : UInt8} {awaited : Nat} {arrived : List UInt8}
    {fits : arrived.length ≤ awaited} {answer} (hf : l.line.Flows)
    (h : l.readOn command awaited arrived fits = (answer, l')) :
    collect l.line.endless command awaited (awaited - arrived.length) arrived (stream l.line.queue) =
        (answer.map Subtype.val, stream l'.line.queue) ∧
      l.line.Drains l'.line ∧ withoutReads l'.calls.toList = withoutReads l.calls.toList := by
  -- what every read leaves as it was
  have hstep : ∀ {l l₁ : Link ScriptedLine} {room : Nat} {answer}, l.read room = (answer, l₁) →
      l.line.Drains l₁.line ∧ withoutReads l₁.calls.toList = withoutReads l.calls.toList := by
    intro l l₁ room answer hr
    have hline : l.line.read room = (answer, l₁.line) := line_read hr
    have hdrains := ScriptedLine.read_drains l.line room
    rw [hline] at hdrains
    refine ⟨hdrains, ?_⟩
    rw [read_calls hr, withoutReads_append]
    exact List.append_nil _
  fun_induction readOn command awaited arrived fits l with
  | case1 arrived fits l full =>
    obtain ⟨rfl, rfl⟩ := Prod.mk.inj h
    refine ⟨?_, .refl _, rfl⟩
    rw [full, Nat.sub_self]
    rfl
  | case2 arrived fits l short e l₁ hr =>
    obtain ⟨rfl, rfl⟩ := Prod.mk.inj h
    exact ⟨ScriptedLine.read_collects hf (by omega) (line_read hr) .., hstep hr⟩
  | case3 arrived fits l short room l₁ hr =>
    obtain ⟨rfl, rfl⟩ := Prod.mk.inj h
    exact ⟨ScriptedLine.read_collects hf (by omega) (line_read hr) .., hstep hr⟩
  | case4 arrived fits l short b more room l₁ hr ih =>
    obtain ⟨hdrains, hcalls⟩ := hstep hr
    obtain ⟨hrest, hdrains', hcalls'⟩ := ih (hdrains.flows hf) h
    have hread := ScriptedLine.read_collects hf (by omega) (line_read hr) command awaited arrived
    refine ⟨?_, hdrains.trans hdrains', hcalls'.trans hcalls⟩
    rw [hread, ← hrest, hdrains.endless, List.length_append, Nat.sub_add_eq]
    rfl

/-! ## Lines with the same stream -/

/-- Scripted lines that differ only in how their bytes are split. -/
structure Rechunked (s t : ScriptedLine) : Prop where
  queue : merged s.queue = merged t.queue
  replies : ∀ command, (s.replies command).map merged = (t.replies command).map merged
  writeAnswers : s.writeAnswers = t.writeAnswers
  endless : s.endless = t.endless
  left_flows : s.Flows
  right_flows : t.Flows

namespace Rechunked

variable {s t s' t' : ScriptedLine}

theorem drains (h : Rechunked s t) (hs : s.Drains s') (ht : t.Drains t')
    (hq : merged s'.queue = merged t'.queue) : Rechunked s' t' where
  queue := hq
  replies := by
    intro command
    rw [hs.replies, ht.replies]
    exact h.replies command
  writeAnswers := by rw [hs.writeAnswers, ht.writeAnswers, h.writeAnswers]
  endless := by rw [hs.endless, ht.endless, h.endless]
  left_flows := hs.flows h.left_flows
  right_flows := ht.flows h.right_flows

theorem answer (h : Rechunked s t) (b : UInt8) : Rechunked (s.answer b) (t.answer b) := by
  have hreplies := h.replies b
  unfold ScriptedLine.answer
  rcases hs : s.replies b with _ | ⟨next, _ | ⟨later, replies⟩⟩ <;>
    rcases ht : t.replies b with _ | ⟨next', _ | ⟨later', replies'⟩⟩ <;>
    simp only [hs, ht, List.map_nil, List.map_cons, List.cons.injEq, reduceCtorEq, and_true, and_false] at hreplies
  · exact h
  · exact ⟨merged_append h.queue hreplies, h.replies, h.writeAnswers, h.endless, h.left_flows, h.right_flows⟩
  · obtain ⟨hnext, hlater⟩ := hreplies
    refine ⟨merged_append h.queue hnext, fun d => ?_, h.writeAnswers, h.endless, h.left_flows, h.right_flows⟩
    by_cases hd : d = b
    · simp only [hd, if_true, List.map_cons, hlater]
    · simp only [hd, if_false, h.replies d]

theorem accept (h : Rechunked s t) (bytes : List UInt8) : Rechunked (s.accept bytes) (t.accept bytes) := by
  unfold ScriptedLine.accept
  induction bytes generalizing s t with
  | nil => exact h
  | cons b bytes ih => exact ih (h.answer b)

theorem writeWith (h : Rechunked s t) (offered : List UInt8) (a : WriteAnswer) :
    (s.writeWith offered a).1 = (t.writeWith offered a).1 ∧
      Rechunked (s.writeWith offered a).2 (t.writeWith offered a).2 := by
  cases a with
  | all => exact ⟨rfl, h.accept offered⟩
  | count taken => exact ⟨rfl, h.accept (offered.take taken)⟩
  | fault f => exact ⟨rfl, h⟩

theorem write (h : Rechunked s t) (offered : List UInt8) :
    (s.write offered).1 = (t.write offered).1 ∧ Rechunked (s.write offered).2 (t.write offered).2 := by
  have hcount : Rechunked s.countWrite t.countWrite :=
    ⟨h.queue, h.replies, h.writeAnswers, h.endless, h.left_flows, h.right_flows⟩
  unfold ScriptedLine.write
  rw [h.writeAnswers]
  cases t.writeAnswers with
  | nil => exact hcount.writeWith offered .all
  | cons a later =>
    have hlater : Rechunked { s.countWrite with writeAnswers := later } { t.countWrite with writeAnswers := later } :=
      ⟨h.queue, h.replies, rfl, h.endless, h.left_flows, h.right_flows⟩
    exact hlater.writeWith offered a

/-- The lines differ only in how their bytes are split, and the calls only
in the reads. -/
structure Links (l m : Link ScriptedLine) : Prop where
  lines : Rechunked l.line m.line
  calls : withoutReads l.calls.toList = withoutReads m.calls.toList

theorem write_agrees (offered : List UInt8) : Agree Links (Link.write offered) (Link.write offered) := by
  intro l m h
  obtain ⟨hanswer, hlines⟩ := h.lines.write offered
  have hl := Link.write_calls (Prod.eta (l.write offered)).symm
  have hm := Link.write_calls (Prod.eta (m.write offered)).symm
  have hsame : (l.write offered).1 = (m.write offered).1 := hanswer
  refine ⟨(l.write offered).1, (l.write offered).2, (m.write offered).2, rfl, Prod.ext hsame.symm rfl, hlines, ?_⟩
  rw [hl, hm, withoutReads_append, withoutReads_append, h.calls, hsame]

theorem readOn_agrees (command : UInt8) (awaited : Nat) :
    Agree Links (Link.readOn command awaited [] (Nat.zero_le _)) (Link.readOn command awaited [] (Nat.zero_le _)) := by
  intro l m h
  obtain ⟨hl, hdrains, hcalls⟩ := Link.readOn_collects h.lines.left_flows
    (Prod.eta (l.readOn command awaited [] (Nat.zero_le _))).symm
  obtain ⟨hm, hdrains', hcalls'⟩ := Link.readOn_collects h.lines.right_flows
    (Prod.eta (m.readOn command awaited [] (Nat.zero_le _))).symm
  rw [h.lines.endless, merged_eq_merged_iff.1 h.lines.queue, hm] at hl
  obtain ⟨hanswer, hstream⟩ := Prod.mk.inj hl
  refine ⟨(l.readOn command awaited [] (Nat.zero_le _)).1, _, _, rfl, Prod.ext ?_ rfl, ⟨?_, ?_⟩⟩
  · generalize (l.readOn command awaited [] (Nat.zero_le _)).1 = a at hanswer ⊢
    generalize (m.readOn command awaited [] (Nat.zero_le _)).1 = b at hanswer ⊢
    cases a <;> cases b <;> simp_all [Except.map, Subtype.ext_iff]
  · exact h.lines.drains hdrains hdrains' (merged_eq_merged_iff.2 hstream.symm)
  · rw [hcalls, hcalls', h.calls]

theorem links_simulate : Link.Simulates Links where
  exchange command n := Agree.exchange (write_agrees [command]) (readOn_agrees command) n
  alike h hl hcl hm hcm := ⟨by rw [hl, hm]; exact h.lines, by rw [hcl, hcm]; exact h.calls⟩

end Rechunked

/-- **How bytes are split makes no difference.** Over lines whose queues and
replies are the same once neighbouring pieces are merged, a client answers
all errands alike, failures included, makes the same calls but for its
reads, and leaves the same unread. -/
theorem Client.attendAll_rechunked (errands : List Errand) (s t : ScriptedLine) (same : Rechunked s t) :
    let c := Client.attendAll errands { link := { line := s } }
    let d := Client.attendAll errands { link := { line := t } }
    c.1 = d.1 ∧ withoutReads c.2.link.calls.toList = withoutReads d.2.link.calls.toList ∧
      merged c.2.link.line.queue = merged d.2.link.line.queue := by
  have htwins : Client.Twins Rechunked.Links { link := { line := s } } { link := { line := t } } :=
    ⟨⟨same, rfl⟩, rfl⟩
  obtain ⟨answers, c, d, hc, hd, h⟩ := Client.attendAll_agrees Rechunked.links_simulate errands htwins
  simp only [hc, hd]
  exact ⟨trivial, h.links.calls, h.links.lines.queue⟩

/-- A line that brings each reply in one piece, the second one cut short by
a silence. -/
def gushing : ScriptedLine where
  replies := fun b => if b = 0xFB then [[.piece [0xFB, 0x10]]] else [[.piece [0x80, 28, 3], .piece []]]

/-- A line that brings the same bytes one by one. -/
def trickling : ScriptedLine where
  replies := fun b =>
    if b = 0xFB then [[.piece [0xFB], .piece [0x10]]] else [[.piece [0x80, 28], .piece [3], .piece []]]
  pieceLimit := some 1

theorem gushing_rechunked : Rechunked gushing trickling where
  queue := rfl
  replies := by
    intro command
    by_cases hc : command = 0xFB
    · simp only [gushing, trickling, hc, if_true]
      rfl
    · simp only [gushing, trickling, hc, if_false]
      rfl
  writeAnswers := rfl
  endless := rfl
  left_flows := by
    intro limit hlimit
    cases hlimit
  right_flows := by
    intro limit hlimit
    cases hlimit
    exact Nat.one_pos

/-- Both get the position, and both count two of 28 bytes before the silence. -/
theorem trickling_answers :
    (Client.attendAll [.perform .readIacPosition, .perform .readData, .disconnect]
        { link := { line := trickling } }).1 =
      [.ok (some (.position 0x10)), .error (.silence 0x80 2 28), .ok none] :=
  (Client.attendAll_rechunked _ gushing trickling gushing_rechunked).1.symm.trans (by cbv)

end MemsProbe
