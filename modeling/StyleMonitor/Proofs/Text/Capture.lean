import StyleMonitor.Program
import StyleMonitor.Proofs.Text.Segments

/-!
# What is kept of what a program writes

What a program writes is read chunk by chunk. A line is kept as soon as it is whole, with a line
feed in place of its ending, and a line that is not text ends the reading. It makes no difference
where the chunks are cut: what is kept is what is kept of all bytes at once, and that is given by the
one way to see them as lines.
-/

namespace StyleMonitor.Text

/-! ### Reading chunk by chunk -/

/-- Where the reading of what a program writes stands. -/
structure Capture where
  /-- What is kept so far. -/
  kept : String := ""
  /-- The bytes of the line under way. -/
  line : Bytes := []
  /-- Whether a line was not text. -/
  halted : Bool := false
  deriving DecidableEq, Repr

namespace Capture

/-- Keeps a whole line, or ends the reading. -/
def close (capture : Capture) (body : Bytes) : Capture :=
  match decode? body with
  | some text => { kept := capture.kept ++ text ++ "\n" }
  | none => { capture with halted := true }

/-- Reads on to the next line feed, or to the end of what is there. -/
def take (capture : Capture) (segment : Bytes × Bool) : Capture :=
  if capture.halted then capture
  else
    let line := capture.line ++ segment.1
    if segment.2 then capture.close (lineBody 13 (line, true)) else { capture with line }

/-- Reads a chunk. -/
def read (capture : Capture) (chunk : Bytes) : Capture :=
  (segments 10 chunk).foldl take capture

/-- What is kept when the program has written all. A last line without a line feed is whole then. -/
def finish (capture : Capture) : String :=
  if capture.halted ∨ capture.line = [] then capture.kept else (capture.close capture.line).kept

/-- What is kept of some chunks. -/
def ofChunks (chunks : List Bytes) : String :=
  (chunks.foldl read {}).finish

end Capture

/-- What is kept of some segments. -/
def keptOf (rows : List (Bytes × Bool)) : String :=
  String.join ((((rows.map (lineBody 13)).map decode?).takeWhile Option.isSome
    |>.filterMap id).map (· ++ "\n"))

theorem captured_eq (bytes : Bytes) : captured bytes = keptOf (segments 10 bytes) := rfl

theorem keptOf_cons (row : Bytes × Bool) (rows : List (Bytes × Bool)) :
    keptOf (row :: rows) =
      match decode? (lineBody 13 row) with
      | some text => text ++ "\n" ++ keptOf rows
      | none => "" := by
  cases decodes : decode? (lineBody 13 row) with
  | some text => simp [keptOf, decodes, String.join_cons]
  | none => simp [keptOf, decodes]

namespace Capture

variable {capture : Capture}

/-- What is kept in the end if these segments are still to be read. -/
def outlook (capture : Capture) (rows : List (Bytes × Bool)) : String :=
  if capture.halted then capture.kept else capture.kept ++ keptOf (lead capture.line rows)

theorem finish_eq (capture : Capture) : capture.finish = capture.outlook [] := by
  cases halted : capture.halted with
  | true => simp [finish, outlook, halted]
  | false =>
    by_cases bare : capture.line = []
    · simp [finish, outlook, halted, bare, keptOf]
    · rw [finish, if_neg (by simp [halted, bare]), outlook, halted, lead, if_neg bare]
      simp only [Bool.false_eq_true, if_false, keptOf_cons, close, lineBody]
      cases decode? capture.line <;> simp [keptOf, String.append_assoc]

theorem outlook_take (capture : Capture) (segment : Bytes × Bool)
    (rows : List (Bytes × Bool)) :
    (capture.take segment).outlook rows = capture.outlook (connect [segment] rows) := by
  obtain ⟨piece, ended⟩ := segment
  cases halted : capture.halted with
  | true => simp [take, outlook, halted]
  | false =>
    cases ended with
    | false => simp [take, outlook, halted, connect, lead_lead]
    | true =>
      simp only [take, halted, Bool.false_eq_true, if_false, if_true, outlook, connect]
      rw [show lead capture.line ((piece, true) :: rows) = (capture.line ++ piece, true) :: rows
        from rfl, keptOf_cons, close]
      cases decode? (lineBody 13 (capture.line ++ piece, true)) <;> simp [String.append_assoc]

theorem outlook_read (capture : Capture) (chunk : Bytes) (rows : List (Bytes × Bool)) :
    (capture.read chunk).outlook rows = capture.outlook (connect (segments 10 chunk) rows) := by
  rw [read]
  generalize segments 10 chunk = segments
  induction segments generalizing capture with
  | nil => rfl
  | cons segment rest ih =>
    rw [List.foldl_cons, ih, outlook_take, ← connect_cons]

/-- What is kept of chunks is what is kept of all their bytes at once. -/
theorem ofChunks_eq (chunks : List Bytes) : ofChunks chunks = captured chunks.flatten := by
  have reads : ∀ capture : Capture, (chunks.foldl read capture).finish =
      capture.outlook (segments 10 chunks.flatten) := by
    induction chunks with
    | nil =>
      intro capture
      exact finish_eq capture
    | cons chunk rest ih =>
      intro capture
      rw [List.foldl_cons, ih, outlook_read, List.flatten_cons, segments_connect]
  rw [ofChunks, reads, captured_eq]
  simp [outlook]

end Capture

/-! ### What is kept, line by line -/

/-- Rows that are texts are kept, each with a line feed for its ending. -/
theorem keptOf_append {rows : List (Bytes × Bool)} {texts : List String}
    (bodies : rows.map (lineBody 13) = texts.map encode) (rest : List (Bytes × Bool)) :
    keptOf (rows ++ rest) = String.join (texts.map (· ++ "\n")) ++ keptOf rest := by
  induction rows generalizing texts with
  | nil =>
    obtain rfl := List.map_eq_nil_iff.mp bodies.symm
    simp
  | cons row rows ih =>
    cases texts with
    | nil => cases bodies
    | cons text texts =>
      rw [List.map_cons, List.map_cons, List.cons.injEq] at bodies
      rw [List.cons_append, keptOf_cons, bodies.1, decode?_encode, List.map_cons, String.join_cons]
      simp only [ih bodies.2, String.append_assoc]

/-- Nothing is kept from a line on that is not text. -/
theorem keptOf_of_halts {lines : List Line}
    (halts : ∀ line ∈ lines.head?, ∀ text, line.body ≠ encode text) :
    keptOf (lines.map Line.segment) = "" := by
  cases lines with
  | nil => rfl
  | cons line lines =>
    have wrong : decode? line.body = none := by
      rw [Option.eq_none_iff_forall_ne_some]
      intro text decodes
      exact halts line rfl text (decode?_eq_some_iff.mp decodes)
    rw [List.map_cons, keptOf_cons, Line.lineBody_segment, wrong]

/-- The lines before the first one that is not text are kept. -/
theorem keptOf_eq {read rest : List Line} {texts : List String}
    (bodies : read.map Line.body = texts.map encode)
    (halts : ∀ line ∈ rest.head?, ∀ text, line.body ≠ encode text) :
    keptOf ((read ++ rest).map Line.segment) = String.join (texts.map (· ++ "\n")) := by
  have rows : (read.map Line.segment).map (lineBody 13) = texts.map encode := by
    rw [← bodies, List.map_map]
    exact List.map_congr_left fun line _ => Line.lineBody_segment line
  rw [List.map_append, keptOf_append rows, keptOf_of_halts halts, String.append_empty]

/-- Lines are read as texts up to the first one that is none. -/
theorem exists_readable (lines : List Line) : ∃ read rest texts, lines = read ++ rest ∧
    read.map Line.body = List.map encode texts ∧
    ∀ line ∈ rest.head?, ∀ text, line.body ≠ encode text := by
  induction lines with
  | nil => exact ⟨[], [], [], rfl, rfl, by simp⟩
  | cons line lines ih =>
    by_cases right : ∃ text, line.body = encode text
    · obtain ⟨text, right⟩ := right
      obtain ⟨read, rest, texts, parts, bodies, halts⟩ := ih
      refine ⟨line :: read, rest, text :: texts, ?_, ?_, halts⟩
      · rw [parts, List.cons_append]
      · rw [List.map_cons, right, bodies, List.map_cons]
    · refine ⟨[], line :: lines, [], rfl, rfl, ?_⟩
      intro first member text same
      obtain rfl := Option.some.inj member
      exact right ⟨text, same⟩

/-! ### What is kept of texts -/

theorem keptOf_encode (s : String) (rows : List (Bytes × Bool)) :
    keptOf (segments 10 (encode s) ++ rows) =
      String.join ((linesOf s).map (· ++ "\n")) ++ keptOf rows :=
  keptOf_append (lineBody_segments_encode s) rows

/-- Of a text its lines are kept. -/
theorem captured_encode (s : String) :
    captured (encode s) = String.join ((linesOf s).map (· ++ "\n")) := by
  have kept := keptOf_encode s []
  rwa [List.append_nil, show keptOf [] = "" from rfl, String.append_empty, ← captured_eq] at kept

/-- The last byte of a text that ends at the end of a line. -/
theorem newline_of_getLast? {text : String} (ends : text = "" ∨ ∃ body, text = body ++ "\n") :
    ∀ b ∈ (encode text).getLast?, b = 10 := by
  rcases ends with rfl | ⟨body, rfl⟩
  · simp
  · have single : encode "\n" = [10] := by decide
    simp [encode_append, single]

/-- After a text that ends at the end of a line, what follows is kept as if it stood alone. -/
theorem captured_append {text : String} (ends : text = "" ∨ ∃ body, text = body ++ "\n")
    (bytes : Bytes) :
    captured (encode text ++ bytes) = captured (encode text) ++ captured bytes := by
  rw [captured_eq, segments_append 10 _ _ (newline_of_getLast? ends), keptOf_encode,
    captured_encode, captured_eq]

/-- A text that has no returns and ends at the end of a line is kept as it is. -/
theorem captured_encode_of_plain {text : String} (ends : text = "" ∨ ∃ body, text = body ++ "\n")
    (plain : '\r' ∉ text.toList) : captured (encode text) = text := by
  have last : ∀ c ∈ text.toList.getLast?, c = '\n' := by
    rcases ends with rfl | ⟨body, rfl⟩
    · simp
    · simp
  rw [captured_encode, ← String.toList_inj, String.toList_join]
  simpa [linesOf, lines, List.flatMap_map, List.map_map, List.flatMap_def, Function.comp_def] using
    flatten_lineBody last plain

/-! ### What a command answers -/

/-- A command answers with what is kept of what its program wrote, however that is cut. -/
theorem replyOf_captured {command : Command} {flow : Shell.Flow} {machine : Shell.Machine}
    {output : Output} (answers : command.replyOf flow machine = .ok output) :
    output.stdout = captured (Shell.toBytes (Shell.Machine.written machine.stdout)) ∧
      output.stderr = captured (Shell.toBytes (Shell.Machine.written machine.stderr)) := by
  rw [Command.replyOf] at answers
  split at answers
  · cases answers
  · cases answers
    exact ⟨rfl, rfl⟩

/-- What is kept of what a program writes, for every way in which it is cut into chunks. It is what
a command answers with. It is, in order, every line before the first one that is not text, each with
a line feed for its ending, and the lines are the only ones that the bytes are made of. So what
follows the end of a line is kept as if it stood alone, and a text that has no returns and ends at
the end of a line is kept as it is. -/
theorem capture_normalizes :
    (∀ command flow machine output, Command.replyOf command flow machine = .ok output →
      (∀ chunks, chunks.flatten = Shell.toBytes (Shell.Machine.written machine.stdout) →
        output.stdout = Capture.ofChunks chunks) ∧
      ∀ chunks, chunks.flatten = Shell.toBytes (Shell.Machine.written machine.stderr) →
        output.stderr = Capture.ofChunks chunks) ∧
    (∀ chunks, ∃ read rest texts, Line.Make chunks.flatten (read ++ rest) ∧
      (∀ lines, Line.Make chunks.flatten lines → lines = read ++ rest) ∧
      read.map Line.body = List.map encode texts ∧
      (∀ line ∈ rest.head?, ∀ text, line.body ≠ encode text) ∧
      Capture.ofChunks chunks = String.join (texts.map (· ++ "\n"))) ∧
    (∀ whole first second text, (text = "" ∨ ∃ body, text = body ++ "\n") →
      first.flatten = encode text → whole.flatten = first.flatten ++ second.flatten →
      Capture.ofChunks whole = Capture.ofChunks first ++ Capture.ofChunks second) ∧
    ∀ chunks text, (text = "" ∨ ∃ body, text = body ++ "\n") → '\r' ∉ text.toList →
      chunks.flatten = encode text → Capture.ofChunks chunks = text := by
  refine ⟨?_, ?_, ?_, ?_⟩
  · intro command flow machine output answers
    obtain ⟨stdout, stderr⟩ := replyOf_captured answers
    constructor
    · intro chunks cut
      rw [stdout, Capture.ofChunks_eq, cut]
    · intro chunks cut
      rw [stderr, Capture.ofChunks_eq, cut]
  · intro chunks
    obtain ⟨lines, make⟩ := Line.exists_make chunks.flatten
    obtain ⟨read, rest, texts, rfl, bodies, halts⟩ := exists_readable lines
    refine ⟨read, rest, texts, make, ?_, bodies, halts, ?_⟩
    · intro others other
      exact Line.eq_of_make other make
    · rw [Capture.ofChunks_eq, captured_eq, Line.segments_of_make make, keptOf_eq bodies halts]
  · intro whole first second text ends start cut
    rw [Capture.ofChunks_eq, Capture.ofChunks_eq, Capture.ofChunks_eq, cut, start,
      captured_append ends]
  · intro chunks text ends plain cut
    rw [Capture.ofChunks_eq, cut, captured_encode_of_plain ends plain]

/-- A program that wrote a line in two parts, with a character cut in two. -/
def halved : Shell.Machine :=
  { stdout := [[Char.ofNat 169, '\n'], [Char.ofNat 195]] }

/-- A chunk may end within a character and between a return and its line feed, and a line that is
not text may follow. -/
theorem capture_normalizes_cut :
    (∀ output, Command.replyOf ⟨"docker", ["run"], none⟩ .next halved = .ok output →
      output.stdout = Capture.ofChunks [[195], [169], [10]]) ∧
    Command.replyOf ⟨"docker", ["run"], none⟩ .next halved = .ok ⟨.code 0, "é\n", ""⟩ ∧
    Capture.ofChunks [[195], [169, 10, 98, 13], [10, 255]] =
      Capture.ofChunks [[195, 169], [10]] ++ Capture.ofChunks [[98, 13, 10], [255]] ∧
    Capture.ofChunks [[195, 169], [10]] = "é\n" ∧
    Capture.ofChunks [[98, 13, 10], [255]] = "b\n" := by
  obtain ⟨answer, -, append, same⟩ := capture_normalizes
  refine ⟨?_, by decide, ?_, ?_, by decide⟩
  · intro output answers
    exact (answer _ _ _ _ answers).1 _ rfl
  · exact append _ _ _ "é\n" (Or.inr ⟨"é", rfl⟩) (by decide) rfl
  · exact same _ "é\n" (Or.inr ⟨"é", rfl⟩) (by decide) (by decide)

end StyleMonitor.Text
