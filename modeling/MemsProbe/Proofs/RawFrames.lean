/-
Raw frames, written and read back.

A run that reads raw frames writes lines: two for each pair of frames, with
the bytes in hexadecimal after a mark, or one, which holds an object of byte
arrays (`frameLines`). A reader that knows nothing of how often the run read
has the pairs back from them (`framesOf?`): it cuts the text into lines, and
a line into words, or at the brackets and quotation marks of the object. What
it cuts at stands nowhere inside a piece, so it finds the pieces that were
put together (`framesOf?_lines`).

What is written is what the reads of the run came to, one after another, and
those that failed leave nothing. So the text tells the pairs that were read,
in order (`run_lossless`).
-/
import MemsProbe.Proofs.Disconnected
import MemsProbe.Proofs.Dumps
import MemsProbe.Proofs.RepeatedReads

namespace MemsProbe
namespace Diagnostics

/-- What is written item by item is read item by item. -/
theorem mapM_writes {α β : Type} {read : β → Option α} {write : α → β} (h : ∀ a, read (write a) = some a) (l : List α) :
    (l.map write).mapM read = some l := by
  induction l with
  | nil => rfl
  | cons a l ih => rw [List.map_cons, List.mapM_cons, h, ih]; rfl

/-! ## Frames -/

theorem size_toArray_of_length {n : Nat} {bytes : List UInt8} (h : bytes.length = n) : bytes.toArray.size = n :=
  List.size_toArray.trans h

/-- The frame of these bytes, if there are as many as it has. -/
def frame? (n : Nat) (bytes : List UInt8) : Option (Vector UInt8 n) :=
  if h : bytes.length = n then some ⟨bytes.toArray, size_toArray_of_length h⟩ else none

theorem frame?_toList {n : Nat} (frame : Vector UInt8 n) : frame? n frame.toList = some frame := by
  obtain ⟨array, rfl⟩ := frame
  rw [frame?, dif_pos (by simp)]
  rfl

/-! ## Bytes in hexadecimal -/

/-- A byte in hexadecimal. -/
def wordByte? (word : List Char) : Option UInt8 :=
  (CommandByte.parse .strict (String.ofList word)).toOption

/-- The bytes of a line that begins with a mark. -/
def markedBytes? (mark : String) (line : List Char) : Option (List UInt8) := do
  let rest ← line.dropPrefix? mark.toList
  (Text.words rest).mapM wordByte?

/-- A line of bytes after a mark. -/
def markedLine (mark : String) (bytes : List UInt8) : String :=
  mark ++ Hex.line bytes

theorem wordByte?_byteChars (b : UInt8) : wordByte? (Hex.byteChars b) = some b := by
  rw [wordByte?, Hex.parse_byteChars]
  rfl

theorem markedBytes?_line (mark : String) (bytes : List UInt8) :
    markedBytes? mark (markedLine mark bytes).toList = some bytes := by
  have hrest : (markedLine mark bytes).toList.dropPrefix? mark.toList = some (Hex.lineChars bytes) := by
    rw [markedLine, String.toList_append, Hex.line, String.toList_ofList]
    exact List.dropPrefix?_append_of_beq _ BEq.rfl
  rw [markedBytes?, hrest, Option.bind_eq_bind, Option.bind_some, Hex.words_lineChars]
  exact mapM_writes wordByte?_byteChars bytes

/-- The pairs of two lines each. -/
def fromMarked? : List (List Char) → Option (List (Frame80 × Frame7D))
  | [] => some []
  | [_] => none
  | first :: second :: lines => do
    let frame80 ← (markedBytes? "80: " first).bind (frame? Frame80.length)
    let frame7D ← (markedBytes? "7D: " second).bind (frame? Frame7D.length)
    let pairs ← fromMarked? lines
    pure ((frame80, frame7D) :: pairs)

/-! ## Bytes in arrays -/

/-- A byte in decimal. -/
def byte? (digits : List Char) : Option UInt8 :=
  (Numeral.readDigits 10 256 digits).toOption.map UInt8.ofNat

/-- The bytes between the brackets of an array. -/
def arrayBytes? : List Char → Option (List UInt8)
  | [] => some []
  | c :: cs => ((c :: cs).splitOn ',').mapM byte?

/-- A member of an object, from what comes before its name to the last byte of
its array. -/
def member? (opening : Char) : List Char → Option (List Char × List UInt8)
  | c :: '"' :: cs =>
    if c = opening then
      match cs.splitOn '"' with
      | [name, ':' :: '[' :: body] => (arrayBytes? body).map (name, ·)
      | _ => none
    else none
  | _ => none

/-- The members of an object that was cut where its arrays end. -/
def members? (opening : Char) : List (List Char) → Option (List (List Char × List UInt8))
  | [] => none
  | [piece] => if piece = ['\x7d'] then some [] else none
  | piece :: more => do
    let member ← member? opening piece
    let members ← members? ',' more
    pure (member :: members)

/-- The members of an object of byte arrays, without blanks. -/
def object? (line : List Char) : Option (List (List Char × List UInt8)) :=
  members? '\x7b' (line.splitOn ']')

/-- The pair of a line that is an object. -/
def fromObject? (line : List Char) : Option (Frame80 × Frame7D) := do
  let members ← object? line
  let frame80 ← (members.lookup "80".toList).bind (frame? Frame80.length)
  let frame7D ← (members.lookup "7d".toList).bind (frame? Frame7D.length)
  pure (frame80, frame7D)

/-- What stands between the brackets of an array of bytes. -/
def arrayBody (bytes : List UInt8) : List Char :=
  [','].intercalate (bytes.map fun b => b.toNat.repr.toList)

theorem toList_byteArrayText (bytes : List UInt8) :
    (byteArrayText bytes).toList = '[' :: arrayBody bytes ++ [']'] := by
  simp [byteArrayText, arrayBody, String.toList_intercalate, Function.comp_def]

theorem byte?_repr (b : UInt8) : byte? b.toNat.repr.toList = some b := by
  have hread : Numeral.readDigits 10 256 b.toNat.repr.toList = .ok b.toNat :=
    (Numeral.readDigits_eq_ok_iff (by decide) (by decide)).2
      ⟨Numeral.repr_ne_nil _, Numeral.writes_repr _, b.toNat_lt⟩
  rw [byte?, hread]
  exact congrArg some (UInt8.ofNat_toNat)

theorem arrayBody_chars {bytes : List UInt8} {c : Char} (hc : c ∈ arrayBody bytes) :
    c = ',' ∨ ∃ d, Numeral.IsWorth c d := by
  refine (Text.mem_intercalate hc).imp_right ?_
  rintro ⟨piece, hpiece, hmem⟩
  obtain ⟨b, -, rfl⟩ := List.mem_map.1 hpiece
  exact (Numeral.writes_repr _).isWorth hmem

/-- Nothing but digits and commas stands in an array. -/
theorem notMem_arrayBody {sep : Char} (hcomma : sep ≠ ',') (hsep : Numeral.digitValue sep = none) (bytes : List UInt8) :
    sep ∉ arrayBody bytes := by
  intro hmem
  rcases arrayBody_chars hmem with hc | ⟨d, hworth⟩
  · exact hcomma hc
  · exact hworth.ne hsep rfl

theorem arrayBytes?_of_ne_nil {body : List Char} (hne : body ≠ []) :
    arrayBytes? body = (body.splitOn ',').mapM byte? := by
  cases body with
  | nil => exact absurd rfl hne
  | cons c cs => rfl

theorem arrayBytes?_body (bytes : List UInt8) : arrayBytes? (arrayBody bytes) = some bytes := by
  cases bytes with
  | nil => rfl
  | cons b bytes =>
    have hclean : ∀ piece ∈ (b :: bytes).map (fun b => b.toNat.repr.toList), ',' ∉ piece := by
      intro piece hpiece hmem
      obtain ⟨a, -, rfl⟩ := List.mem_map.1 hpiece
      obtain ⟨d, hworth⟩ := (Numeral.writes_repr _).isWorth hmem
      exact hworth.ne rfl rfl
    have hne : arrayBody (b :: bytes) ≠ [] := by
      intro hnil
      have hsplit := List.splitOn_intercalate ',' hclean (by simp)
      rw [← arrayBody, hnil, List.map_cons] at hsplit
      exact Numeral.repr_ne_nil _ (List.cons.inj hsplit).1.symm
    rw [arrayBytes?_of_ne_nil hne, arrayBody, List.splitOn_intercalate ',' hclean (by simp)]
    exact mapM_writes byte?_repr (b :: bytes)

/-- A member up to the end of its array, after what comes before its name. -/
def memberPiece (opening : Char) (member : String × List UInt8) : List Char :=
  opening :: '"' :: member.1.toList ++ '"' :: ':' :: '[' :: arrayBody member.2

/-- The pieces of an object that is cut where its arrays end. -/
def memberPieces (opening : Char) : List (String × List UInt8) → List (List Char)
  | [] => [['\x7d']]
  | member :: more => memberPiece opening member :: memberPieces ',' more

/-- An object of byte arrays. -/
def arraysText (members : List (String × List UInt8)) : String :=
  Reading.objectText (members.map fun member => (member.1, byteArrayText member.2))

theorem memberPieces_ne_nil (opening : Char) (members : List (String × List UInt8)) :
    memberPieces opening members ≠ [] := by
  cases members <;> nofun

theorem toList_members (opening : Char) {members : List (String × List UInt8)} (hne : members ≠ []) :
    opening ::
        [','].intercalate (members.map fun member => (Reading.memberText (member.1, byteArrayText member.2)).toList) ++
      ['\x7d'] = [']'].intercalate (memberPieces opening members) := by
  induction members generalizing opening with
  | nil => exact absurd rfl hne
  | cons member more ih =>
    rw [memberPieces, List.intercalate_cons_of_ne_nil (memberPieces_ne_nil ',' more)]
    by_cases hmore : more = []
    · subst hmore
      simp [memberPieces, memberPiece, Reading.memberText, toList_byteArrayText]
    · rw [← ih ',' hmore, List.map_cons, List.intercalate_cons_of_ne_nil (by simpa using hmore)]
      simp [memberPiece, Reading.memberText, toList_byteArrayText]

theorem toList_arraysText {members : List (String × List UInt8)} (hne : members ≠ []) :
    (arraysText members).toList = [']'].intercalate (memberPieces '\x7b' members) := by
  rw [← toList_members '\x7b' hne, arraysText, Reading.objectText]
  simp [String.toList_intercalate, Function.comp_def]

theorem member?_piece (opening : Char) {member : String × List UInt8} (hname : '"' ∉ member.1.toList) :
    member? opening (memberPiece opening member) = some (member.1.toList, member.2) := by
  have hbody : '"' ∉ ':' :: '[' :: arrayBody member.2 := by
    simpa using notMem_arrayBody (by decide) rfl member.2
  have hclean : ∀ piece ∈ [member.1.toList, ':' :: '[' :: arrayBody member.2], '"' ∉ piece :=
    List.forall_mem_cons.2 ⟨hname, List.forall_mem_singleton.2 hbody⟩
  have hsplit := List.splitOn_intercalate '"' hclean (by simp)
  rw [List.intercalate_cons_of_ne_nil (by simp), List.intercalate_singleton, List.append_assoc,
    List.singleton_append] at hsplit
  rw [memberPiece, List.cons_append, List.cons_append, member?, if_pos rfl, hsplit]
  simp only [arrayBytes?_body, Option.map_some]

theorem members?_cons (opening : Char) (piece : List Char) {more : List (List Char)} (hne : more ≠ []) :
    members? opening (piece :: more) =
      (member? opening piece).bind fun member => (members? ',' more).map (member :: ·) := by
  cases more with
  | nil => exact absurd rfl hne
  | cons next more =>
    rw [members?]
    · cases member? opening piece with
      | none => rfl
      | some member => cases members? ',' (next :: more) <;> rfl
    · nofun

theorem members?_pieces (opening : Char) {members : List (String × List UInt8)}
    (hnames : ∀ member ∈ members, '"' ∉ member.1.toList) :
    members? opening (memberPieces opening members) = some (members.map fun member => (member.1.toList, member.2)) := by
  induction members generalizing opening with
  | nil => rfl
  | cons member more ih =>
    obtain ⟨hname, hnames⟩ := List.forall_mem_cons.1 hnames
    rw [memberPieces, members?_cons opening _ (memberPieces_ne_nil ',' more), member?_piece opening hname,
      ih ',' hnames]
    rfl

theorem notMem_memberPieces {sep opening : Char} (hsep : sep ∉ ['\x7d', '"', ':', '[', ','])
    (hdigit : Numeral.digitValue sep = none) (hopening : sep ≠ opening) {members : List (String × List UInt8)}
    (hnames : ∀ member ∈ members, sep ∉ member.1.toList) : ∀ piece ∈ memberPieces opening members, sep ∉ piece := by
  simp only [List.mem_cons, List.not_mem_nil, or_false, not_or] at hsep
  obtain ⟨hclosing, hquote, hcolon, hbracket, hcomma⟩ := hsep
  induction members generalizing opening with
  | nil => simpa [memberPieces] using hclosing
  | cons member more ih =>
    obtain ⟨hname, hnames⟩ := List.forall_mem_cons.1 hnames
    refine List.forall_mem_cons.2 ⟨?_, ih hcomma hnames⟩
    have hbody := notMem_arrayBody hcomma hdigit member.2
    simp [memberPiece, hopening, hquote, hname, hcolon, hbracket, hbody]

/-- An object of byte arrays is read as its members. -/
theorem object?_text {members : List (String × List UInt8)} (hne : members ≠ [])
    (hnames : ∀ member ∈ members, '"' ∉ member.1.toList ∧ ']' ∉ member.1.toList) :
    object? (arraysText members).toList = some (members.map fun member => (member.1.toList, member.2)) := by
  have hclean : ∀ piece ∈ memberPieces '\x7b' members, ']' ∉ piece :=
    notMem_memberPieces (by decide) rfl (by decide) fun member hmember => (hnames member hmember).2
  rw [object?, toList_arraysText hne, List.splitOn_intercalate ']' hclean (memberPieces_ne_nil _ _),
    members?_pieces _ fun member hmember => (hnames member hmember).1]

/-! ## Lines -/

/-- The members of the object that shows a pair of frames. -/
def frameMembers (frames : Frame80 × Frame7D) : List (String × List UInt8) :=
  [("7d", frames.2.toList), ("80", frames.1.toList)]

/-- The lines that show a pair of frames. -/
def frameLines (format : OutputFormat) (frames : Frame80 × Frame7D) : List String :=
  match format with
  | .text => [markedLine "80: " frames.1.toList, markedLine "7D: " frames.2.toList]
  | .json => [arraysText (frameMembers frames)]

/-- The pairs that a text shows. -/
def framesOf? (format : OutputFormat) (text : String) : Option (List (Frame80 × Frame7D)) :=
  match format with
  | .text => fromMarked? (Text.closedLines text.toList)
  | .json => (Text.closedLines text.toList).mapM fromObject?

/-- Lines, each with its end. -/
def closeAll (lines : List String) : String :=
  String.join (lines.map (· ++ "\n"))

theorem framesText_lines (format : OutputFormat) (frames : Frame80 × Frame7D) :
    framesText format frames = closeAll (frameLines format frames) := by
  cases format with
  | text =>
    simp only [framesText, closeAll, frameLines, markedLine, List.map_cons, List.map_nil, String.join_cons,
      String.join_nil, String.append_empty, String.append_assoc]
  | json =>
    simp only [framesText, closeAll, frameLines, arraysText, frameMembers, List.map_cons, List.map_nil,
      String.join_cons, String.join_nil, String.append_empty]

theorem join_framesText (format : OutputFormat) (pairs : List (Frame80 × Frame7D)) :
    String.join (pairs.map (framesText format)) = closeAll (pairs.flatMap (frameLines format)) := by
  induction pairs with
  | nil => rfl
  | cons frames pairs ih =>
    rw [List.map_cons, String.join_cons, ih, framesText_lines, List.flatMap_cons, closeAll, closeAll, closeAll,
      List.map_append, String.join_append]

theorem markedLine_lineEnd {mark : String} (hmark : '\n' ∉ mark.toList) (bytes : List UInt8) :
    '\n' ∉ (markedLine mark bytes).toList := by
  rw [markedLine, String.toList_append, Hex.line, String.toList_ofList, List.mem_append, not_or]
  exact ⟨hmark, Hex.lineChars_lineEnd bytes⟩

theorem arraysText_lineEnd {members : List (String × List UInt8)} (hne : members ≠ [])
    (hnames : ∀ member ∈ members, '\n' ∉ member.1.toList) : '\n' ∉ (arraysText members).toList := by
  rw [toList_arraysText hne]
  intro hmem
  rcases Text.mem_intercalate hmem with hbracket | ⟨piece, hpiece, hc⟩
  · exact absurd hbracket (by decide)
  · exact notMem_memberPieces (by decide) rfl (by decide) hnames piece hpiece hc

theorem frameMembers_ne_nil (frames : Frame80 × Frame7D) : frameMembers frames ≠ [] := by
  rw [frameMembers]
  exact List.cons_ne_nil _ _

/-- The names can stand on a line of their own, in quotation marks and before an array. -/
theorem frameMembers_names (frames : Frame80 × Frame7D) :
    ∀ member ∈ frameMembers frames, '\n' ∉ member.1.toList ∧ '"' ∉ member.1.toList ∧ ']' ∉ member.1.toList := by
  simp only [frameMembers, List.forall_mem_cons, List.not_mem_nil, false_imp_iff, implies_true, and_true]
  decide

theorem frameLines_lineEnd (format : OutputFormat) (frames : Frame80 × Frame7D) :
    ∀ line ∈ frameLines format frames, '\n' ∉ line.toList := by
  cases format with
  | text =>
    have h80 : '\n' ∉ (markedLine "80: " frames.1.toList).toList := markedLine_lineEnd (by decide) _
    have h7D : '\n' ∉ (markedLine "7D: " frames.2.toList).toList := markedLine_lineEnd (by decide) _
    exact List.forall_mem_cons.2 ⟨h80, List.forall_mem_singleton.2 h7D⟩
  | json =>
    have hobject := arraysText_lineEnd (frameMembers_ne_nil frames) fun member hmember =>
      (frameMembers_names frames member hmember).1
    exact List.forall_mem_singleton.2 hobject

theorem closedLines_closeAll {lines : List String} (h : ∀ line ∈ lines, '\n' ∉ line.toList) :
    Text.closedLines (closeAll lines).toList = lines.map String.toList := by
  have hclosed : (closeAll lines).toList = (lines.map String.toList).flatMap (· ++ ['\n']) := by
    simp only [closeAll, String.toList_join, List.flatMap_map, String.toList_append]
    rfl
  rw [hclosed]
  refine Text.closedLines_closed fun line hline => ?_
  obtain ⟨line, hmem, rfl⟩ := List.mem_map.1 hline
  exact h line hmem

theorem fromMarked?_lines (pairs : List (Frame80 × Frame7D)) :
    fromMarked? ((pairs.flatMap (frameLines .text)).map String.toList) = some pairs := by
  induction pairs with
  | nil => rfl
  | cons frames pairs ih =>
    rw [List.flatMap_cons, List.map_append, frameLines, List.map_cons, List.map_cons, List.map_nil, List.cons_append,
      List.cons_append, List.nil_append, fromMarked?, ih]
    simp only [markedBytes?_line, Option.bind_some, frame?_toList]
    rfl

theorem fromObject?_line (frames : Frame80 × Frame7D) :
    fromObject? (arraysText (frameMembers frames)).toList = some frames := by
  have hother : ("80".toList == "7d".toList) = false := by decide
  have hobject := object?_text (frameMembers_ne_nil frames) fun member hmember =>
    (frameMembers_names frames member hmember).2
  rw [fromObject?, hobject]
  simp only [frameMembers, List.map_cons, List.map_nil, List.lookup_cons, hother, BEq.rfl, Option.bind_eq_bind, Option.bind_some,
    frame?_toList]
  rfl

/-- **Lines of frames are read as the pairs that they show**, in either format. -/
theorem framesOf?_lines (format : OutputFormat) (pairs : List (Frame80 × Frame7D)) :
    framesOf? format (closeAll (pairs.flatMap (frameLines format))) = some pairs := by
  have hlines : ∀ line ∈ pairs.flatMap (frameLines format), '\n' ∉ line.toList := by
    intro line hline
    obtain ⟨frames, -, hmem⟩ := List.mem_flatMap.1 hline
    exact frameLines_lineEnd format frames line hmem
  have hclosed := closedLines_closeAll hlines
  cases format with
  | text =>
    rw [framesOf?, hclosed]
    exact fromMarked?_lines pairs
  | json =>
    have hone : pairs.flatMap (frameLines .json) = pairs.map fun frames => arraysText (frameMembers frames) :=
      List.map_eq_flatMap.symm
    rw [framesOf?, hclosed, hone, List.map_map]
    exact mapM_writes fromObject?_line pairs

/-! ## Runs -/

section

variable {σ ω : Type} [Line σ] [Sink ω] {out : ω}

/-- The reads that are made, and the lines that are written for those that
went well. -/
theorem execute_writes (works : Sink.Works out) (options : RunOptions) (rounds : Nat) (input : List UInt8)
    (c : Client σ) :
    let carried := execute options rounds .readRaw input c out
    ∃ results c', Fetches Client.readRaw c results c' ∧
      (results.length = rounds ∧ carried.1 = .unfinished ∨
        results.length < rounds ∧ Over options.readCount results.length c' ∧
          Verdict options.readCount results carried.1) ∧
      Sink.Takes out (closeAll ((successes results).flatMap (frameLines options.outputFormat))) carried.2.2 := by
  intro carried
  have hcarried : carried =
      readLoop Client.readRaw (framesText options.outputFormat) options.readCount rounds {} c out := rfl
  obtain ⟨results, c', hlt, h, hover⟩ | ⟨results, c', rfl, h, hwithin⟩ :=
    fetches_or_over Client.readRaw c options.readCount rounds
  · obtain ⟨answer, c'', out', heq, hverdict, -, hshown⟩ :=
      h.readLoop_over hover works (framesText_ne_empty options.outputFormat) hlt
    have htakes := hshown.takes
    rw [join_framesText] at htakes
    rw [hcarried, heq]
    exact ⟨results, c', h, .inr ⟨hlt, hover, hverdict⟩, htakes⟩
  · obtain ⟨out', hshown, -, hrest⟩ := h.readLoop hwithin works (framesText_ne_empty options.outputFormat)
    have hloop := hrest 0
    rw [Nat.add_zero] at hloop
    have htakes := hshown.takes
    rw [join_framesText] at htakes
    rw [hcarried, hloop]
    exact ⟨results, c', h, .inl ⟨rfl, rfl⟩, htakes⟩

/-- **A run that reads raw frames writes all that it read**, in either format,
on any line and to any sink that works. After the header there are the lines
of the pairs that its reads came to, in order, and none for a read that
failed, whichever of the two frames it failed at. They are read back as these
pairs, and this also when the run has not ended. -/
theorem run_lossless (works : Sink.Works out) (options : RunOptions) (rounds : Nat) (input : List UInt8)
    (c : Client σ) :
    let run := Diagnostics.run options rounds .readRaw input c out
    (∃ e c₁, c.initLink = (.error e, c₁) ∧ run.1 = .failed e ∧ run.2.2 = out) ∨
      ∃ id c₁ results c', c.initLink = (.ok id, c₁) ∧ Fetches Client.readRaw c₁ results c' ∧
        (results.length = rounds ∧ run.1 = .unfinished ∨
          results.length < rounds ∧ Over options.readCount results.length c' ∧
            Verdict options.readCount results run.1) ∧
        ∃ body, Sink.Takes out (headerText id.toList ++ body) run.2.2 ∧
          body = closeAll ((successes results).flatMap (frameLines options.outputFormat)) ∧
          framesOf? options.outputFormat body = some (successes results) := by
  intro run
  obtain ⟨hanswer, -, -, hout⟩ := run_same options rounds .readRaw input c out
  have hanswer : run.1 = _ := hanswer
  have hout : run.2.2 = _ := hout
  rw [hanswer, hout]
  rcases hinit : c.initLink with ⟨e | id, c₁⟩
  · have hfailed : wakeAndExecute options rounds .readRaw input c out = (.failed e, c₁, out) := by
      simp only [wakeAndExecute, hinit]
    rw [hfailed]
    exact .inl ⟨e, c₁, rfl, rfl, rfl⟩
  · obtain ⟨out₁, hprint, works₁⟩ := works.print (headerText id.toList)
    have hwoke : wakeAndExecute options rounds .readRaw input c out = execute options rounds .readRaw input c₁ out₁ := by
      simp only [wakeAndExecute, hinit, hprint]
    rw [hwoke]
    obtain ⟨results, c', h, hends, htakes⟩ := execute_writes works₁ options rounds input c₁
    exact .inr ⟨id, c₁, results, c', rfl, h, hends, _, (Sink.takes_print hprint).trans htakes, rfl,
      framesOf?_lines _ _⟩

/-- An ECU that answers each request, but does not answer the second one for
the second frame. -/
def patchy : Client ScriptedLine where
  link := { line := { replies := fun b =>
    if b = Wire.requestFrame80 then [[.piece (b :: List.replicate 28 7)]]
    else if b = Wire.requestFrame7D then
      [[.piece (b :: List.replicate 32 1)], [], [.piece (b :: List.replicate 32 2)]]
    else if b = Wire.identify then [[.piece [b, 0x99, 0, 2, 3]]]
    else [[.piece [b]]] } }

/-- Three reads, of which the second one fails halfway: what was written after
the header is read as the pairs that the others came to. -/
theorem patchy_lossless :
    let run := run { readCount := .times 3, outputFormat := .json } 4 .readRaw [] patchy ({} : BoundedSink)
    ∃ id results body, Verdict (.times 3) results (.done ()) ∧ run.2.2.offered = headerText id ++ body ∧
      framesOf? .json body = some (successes results) := by
  intro run
  have hopen : ({} : BoundedSink).Open := ⟨rfl, rfl⟩
  have hdone : run.1 = .done () := by decide +kernel
  obtain ⟨e, c₁, -, hfailed, -⟩ | ⟨id, c₁, results, c', -, -, hends, body, htakes, -, hread⟩ :=
    run_lossless hopen.works { readCount := .times 3, outputFormat := .json } 4 [] patchy
  · cases hfailed.symm.trans hdone
  · obtain ⟨-, hmore⟩ | ⟨-, -, hverdict⟩ := hends
    · cases hmore.symm.trans hdone
    · refine ⟨id.toList, results, body, hdone ▸ hverdict, ?_, hread⟩
      simpa using congrArg BoundedSink.offered (hopen.takes htakes)

end

end Diagnostics
end MemsProbe
