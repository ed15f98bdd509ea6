import StyleMonitor.Proofs.Toml.Values

/-!
# Blocks

A block is a section of a document with its lines as they are defined, not as text. The text of
blocks is read again as their headers and lines, in their order.
-/

namespace StyleMonitor.Toml

/-- A section of a document, with what is defined below its header. -/
structure Block where
  heading : Heading
  row : List Key
  /-- Whether it is an element of an array of tables. -/
  element : Bool
  lines : List (List Key × Key × Item)

/-- The section of a block. -/
def Block.part (block : Block) : Section :=
  ⟨block.heading, block.row, block.element, block.lines.map lineText⟩

mutual

/-- The blocks of an item at the end of a row of keys. -/
def Item.blocksAt (row : List Key) : Item → List Block
  | .scalar _ _ _ => []
  | .array _ _ _ => []
  | .inline _ _ _ => []
  | .table heading members =>
    (if heading.dotted then [] else [⟨heading, row, false, linesBelow [] members⟩]) ++
      blocksBelow row members
  | .tables elements => blocksOfElements row elements

/-- The blocks of the tables below a row of keys, in the order of the tree. -/
def blocksBelow (row : List Key) : List (Key × Item) → List Block
  | [] => []
  | (key, item) :: rest => item.blocksAt (row ++ [key]) ++ blocksBelow row rest

/-- The blocks of an array of tables. -/
def blocksOfElements (row : List Key) : List (Heading × List (Key × Item)) → List Block
  | [] => []
  | (heading, members) :: rest =>
    ⟨heading, row, true, linesBelow [] members⟩ :: blocksBelow row members ++
      blocksOfElements row rest

end

/-- The blocks of a whole tree, from the top on. -/
def blocks (members : Members) : List Block :=
  ⟨{}, [], false, linesBelow [] members⟩ :: blocksBelow [] members

mutual

theorem sectionsBelow_cons (row : List Key) (key : Key) (rest : Members) :
    ∀ item : Item, sectionsBelow row ((key, item) :: rest) =
      (item.blocksAt (row ++ [key])).map Block.part ++ sectionsBelow row rest
  | .scalar .. => by simp [sectionsBelow, Item.blocksAt]
  | .array .. => by simp [sectionsBelow, Item.blocksAt]
  | .inline .. => by simp [sectionsBelow, Item.blocksAt]
  | .table heading members => by
    rw [sectionsBelow, sectionsBelow_eq (row ++ [key]) members, Item.blocksAt, List.map_append]
    split
    · rfl
    · rw [memberTexts_eq]
      rfl
  | .tables elements => by
    rw [sectionsBelow, sectionsOfElements_eq (row ++ [key]) elements, Item.blocksAt]

theorem sectionsBelow_eq (row : List Key) :
    ∀ members : Members, sectionsBelow row members = (blocksBelow row members).map Block.part
  | [] => by rw [sectionsBelow]; rfl
  | (key, item) :: rest => by
    rw [sectionsBelow_cons row key rest item, sectionsBelow_eq row rest, blocksBelow,
      List.map_append]

theorem sectionsOfElements_eq (row : List Key) :
    ∀ elements : List (Heading × Members),
      sectionsOfElements row elements = (blocksOfElements row elements).map Block.part
  | [] => by rw [sectionsOfElements]; rfl
  | (heading, members) :: rest => by
    rw [sectionsOfElements, sectionsBelow_eq row members, sectionsOfElements_eq row rest,
      memberTexts_eq, blocksOfElements]
    simp [Block.part]

end

theorem sections_eq (members : Members) : sections members = (blocks members).map Block.part := by
  rw [sections, sectionsBelow_eq, memberTexts_eq]
  rfl

/-! ### Lines that are read again -/

/-- A line of a document, by its names. -/
inductive LineOutline where
  | header (element : Bool) (path : List String) (leaf : String)
  | pair (line : LineShape)

/-- What a line says. -/
def Line.outline : Line → LineOutline
  | .header element _ path leaf => .header element (path.map Key.name) leaf.name
  | .pair path leaf item => .pair (lineShape (path, leaf, item))

/-- Whether a text is read as such lines, whatever comes after it. -/
def ReadsAs (text : List Char) (outlines : List LineOutline) : Prop :=
  outlines.length ≤ text.length ∧ ∀ fuel tail, ∃ lines : List Line,
    lines.map Line.outline = outlines ∧ readLinesOf (outlines.length + fuel) (text ++ tail) =
      (readLinesOf fuel tail).map fun (more, trailing) => (lines ++ more, trailing)

theorem ReadsAs.nil : ReadsAs [] [] := by
  refine ⟨Nat.le_refl 0, fun fuel tail => ⟨[], rfl, ?_⟩⟩
  simp only [List.length_nil, Nat.zero_add, List.nil_append]
  cases readLinesOf fuel tail <;> rfl

theorem ReadsAs.append {first second : List Char} {these those : List LineOutline}
    (readsFirst : ReadsAs first these) (readsSecond : ReadsAs second those) :
    ReadsAs (first ++ second) (these ++ those) := by
  refine ⟨by simpa using Nat.add_le_add readsFirst.1 readsSecond.1, fun fuel tail => ?_⟩
  obtain ⟨lines, outlines, read⟩ := readsFirst.2 (those.length + fuel) (second ++ tail)
  obtain ⟨more, outlinesMore, readMore⟩ := readsSecond.2 fuel tail
  refine ⟨lines ++ more, by rw [List.map_append, outlines, outlinesMore], ?_⟩
  rw [List.length_append, Nat.add_assoc, List.append_assoc, read, readMore, Option.map_map]
  congr 1
  funext ⟨others, trailing⟩
  simp

/-- A line with a key is read again. -/
theorem readsAs_line {line : List Key × Key × Item} (fits : LineFits LineEnd maxDepth line) :
    ReadsAs (lineText line ++ ['\n']) [.pair (lineShape line)] := by
  refine ⟨by simp, fun fuel tail => ?_⟩
  obtain ⟨trivia, c, more, path, leaf, s, readT, -, notBracket, readR, pathNames, leafName,
    starts⟩ := read_lineText fits ('\n' :: tail)
  have ends := fits.value.2.2
  obtain ⟨again, readV, shape⟩ := fits.value.1.reads ((s.dropWhile isBlank).length + 1)
    (line.2.2.decor.after.getD [] ++ '\n' :: tail) (by rw [starts]; simp; omega)
    (valueEnd_lineEnd ends tail)
  rw [← starts] at readV
  set item := again.decorated (.written (s.takeWhile isBlank) (line.2.2.decor.after.getD []))
    with itemDef
  refine ⟨[.pair path leaf item], ?_, ?_⟩
  · simp [Line.outline, lineShape, itemDef, shape, pathNames, leafName]
  · have equals : after? '=' ('=' :: s) = some s := by simp [after?]
    have readP : readPair trivia (c :: more) = some (.pair path leaf item, tail) := by
      simp only [readPair, readR, equals, readV, readLineEnd_append ends, Option.bind_eq_bind,
        Option.bind_some, Option.pure_def, itemDef]
    rw [List.length_singleton, Nat.add_comm, List.append_assoc, List.singleton_append, readLinesOf]
    simp only [readT, if_neg notBracket, readP, Option.bind_eq_bind, Option.bind_some,
      Option.pure_def]
    cases readLinesOf fuel tail <;> rfl

theorem readsAs_lines {lines : List (List Key × Key × Item)}
    (fits : ∀ line ∈ lines, LineFits LineEnd maxDepth line) :
    ReadsAs ((lines.map lineText).flatMap (· ++ ['\n'])) (lines.map fun line => .pair (lineShape line)) := by
  induction lines with
  | nil => exact .nil
  | cons line lines ih =>
    rw [List.map_cons, List.flatMap_cons, List.map_cons]
    exact (readsAs_line (fits line List.mem_cons_self)).append
      (ih fun l mem => fits l (List.mem_cons_of_mem _ mem))

/-! ### Headers that are read again -/

/-- What holds of a block: its header and its lines are read again. -/
structure Block.Fits (block : Block) : Prop where
  lines : ∀ line ∈ block.lines, LineFits LineEnd maxDepth line
  row : ∀ key ∈ block.row, key.Legible
  before : Trivia (block.heading.decor.before.getD [])
  after : LineEnd (block.heading.decor.after.getD [])

/-- The brackets that a header has one more of on each side. -/
def innerBracket (element : Bool) (bracket : Char) : List Char :=
  if element then [bracket] else []

/-- The row of a header is read after its first bracket, up to the end of the line. -/
theorem readHeader_row {path : List Key} {leaf : Key} (legible : ∀ k ∈ path ++ [leaf], k.Legible)
    (blankBefore : Blank (leaf.outer.before.getD [])) (element : Bool) {after : List Char}
    (ends : LineEnd after) (trivia tail : List Char) :
    ∃ line, Line.outline line = .header element (path.map Key.name) leaf.name ∧
      readHeader trivia (innerBracket element '[' ++ (rowText [] [] (path ++ [leaf]) ++
        ']' :: (innerBracket element ']' ++ (after ++ '\n' :: tail)))) = some (line, tail) := by
  obtain ⟨key, more, keys⟩ : ∃ key more, path ++ [leaf] = key :: more := by
    cases path with
    | nil => exact ⟨leaf, [], rfl⟩
    | cons key path => exact ⟨key, path ++ [leaf], rfl⟩
  have blankAfter := (legible leaf (by simp)).after
  rw [keys] at legible
  set closing := innerBracket element ']' ++ (after ++ '\n' :: tail) with closingDef
  have row : rowText [] [] (path ++ [leaf]) ++ ']' :: closing = leaf.outer.before.getD [] ++
      (rowFrom key more ++ (leaf.outer.after.getD [] ++ ']' :: closing)) := by
    rw [keys, rowText_cons, ← keys, List.getLast?_concat]
    simp [Decor.around]
  obtain ⟨path', leaf', readR, names⟩ :=
    readRow_rowFrom legible blankBefore blankAfter (Or.inr rfl) [] closing
  -- A row does not start with a bracket.
  have noBracket : (rowText [] [] (path ++ [leaf]) ++ ']' :: closing).head? ≠ some '[' := by
    obtain ⟨rest, spelled⟩ := rowFrom_eq_append key more
    obtain ⟨c, keyRest, spelling, -, -, notBracket⟩ :=
      startsKey (legible key List.mem_cons_self).spelled
    rw [row]
    cases lead : leaf.outer.before.getD [] with
    | nil => simpa [spelled, spelling] using notBracket
    | cons d lead' =>
      have := blankBefore d (by rw [lead]; exact List.mem_cons_self)
      simpa using ne_of_isBlank this (by decide)
  rw [← row] at readR
  rw [← keys, List.map_append, List.map_append, List.map_singleton, List.map_singleton] at names
  obtain ⟨pathNames, leafNames⟩ := List.append_inj' names rfl
  have leafName : leaf'.name = leaf.name := by simpa using leafNames
  have readE := readLineEnd_append ends tail
  have bracket : after? ']' (']' :: closing) = some closing := by simp [after?]
  refine ⟨.header element (.written trivia after) path' leaf',
    by simp [Line.outline, pathNames, leafName], ?_⟩
  cases element with
  | true =>
    have bracket' : after? ']' closing = some (after ++ '\n' :: tail) := by
      simp [closingDef, innerBracket, after?]
    simp only [readHeader, innerBracket, if_true, List.singleton_append, List.head?_cons,
      List.tail_cons, readR, bracket, bracket', readE, Option.bind_eq_bind, Option.bind_some,
      Option.pure_def, decide_true]
  | false =>
    have readE' : readLineEnd closing = some (after, tail) := by
      simpa [closingDef, innerBracket] using readE
    simp only [readHeader, innerBracket, Bool.false_eq_true, if_false, List.nil_append, noBracket,
      readR, bracket, readE', Option.bind_eq_bind, Option.bind_some, Option.pure_def, decide_false]

/-- What goes before the brackets of a header can stand there, and there are only blanks before
its row. -/
theorem exists_headed (path : List Key) {leaf : Key} (legible : leaf.Legible) :
    ∃ before outer, Section.headed (path ++ [leaf]) = (before, path ++ [{ leaf with outer }]) ∧
      Trivia before ∧ Key.Legible { leaf with outer } ∧ Blank (outer.before.getD []) := by
  rw [Section.headed, List.getLast?_concat, List.dropLast_concat]
  by_cases newline : '\n' ∈ leaf.outer.before.getD []
  · refine ⟨leaf.outer.before.getD [], {}, if_pos (List.contains_iff_mem.mpr newline), legible.before,
      ⟨legible.spelled, rfl, .nil, legible.dottedBefore, legible.dottedAfter⟩, .nil⟩
  · exact ⟨[], leaf.outer, if_neg (mt List.contains_iff_mem.mp newline), rfl, legible,
      blank_of_isTrivia legible.before newline⟩

/-- A header is read again. -/
theorem readsAs_header {block : Block} (fits : block.Fits) {path : List Key} {leaf : Key}
    (row : block.row = path ++ [leaf]) (first : Bool) :
    ReadsAs (block.part.headerText first)
      [.header block.element (path.map Key.name) leaf.name] := by
  refine ⟨by simp [Section.headerText], fun fuel tail => ?_⟩
  have legible := fits.row
  rw [row, List.forall_mem_append, List.forall_mem_singleton] at legible
  obtain ⟨before, outer, headed, trivialKey, legibleLeaf, blank⟩ := exists_headed path legible.2
  set start := block.heading.decor.before.getD (if first then [] else ['\n']) with startDef
  have trivialStart : Trivia start := by
    have := fits.before
    rw [startDef]
    cases written : block.heading.decor.before with
    | none => cases first <;> rfl
    | some text => rwa [written] at this
  have trivial : Trivia (start ++ before) := isTrivia_append trivialStart trivialKey
  have legibleRow : ∀ k ∈ path ++ [{ leaf with outer }], k.Legible :=
    List.forall_mem_append.mpr ⟨legible.1, List.forall_mem_singleton.mpr legibleLeaf⟩
  obtain ⟨line, outline, readH⟩ :=
    readHeader_row legibleRow blank block.element fits.after (start ++ before) tail
  set header := innerBracket block.element '[' ++ (rowText [] [] (path ++ [{ leaf with outer }]) ++
    ']' :: (innerBracket block.element ']' ++
      (block.heading.decor.after.getD [] ++ '\n' :: tail))) with headerDef
  have text : block.part.headerText first ++ tail = (start ++ before) ++ '[' :: header := by
    rw [headerDef, startDef, Section.headerText]
    simp only [Block.part, row, headed, Decor.around]
    cases block.element <;> simp [innerBracket]
  have readT : readTrivia false ((start ++ before) ++ '[' :: header) =
      some (start ++ before, '[' :: header) :=
    readTrivia_append trivial (by simp; decide)
  refine ⟨[line], by simp [outline], ?_⟩
  rw [List.length_singleton, Nat.add_comm, text, readLinesOf]
  simp only [readT, if_true, readH, Option.bind_eq_bind, Option.bind_some, Option.pure_def]
  cases readLinesOf fuel tail <;> rfl

/-! ### Documents that are read again -/

namespace Block

/-- Whether anything is to be seen of a block. -/
def isVisible (block : Block) : Bool :=
  block.element || !(block.heading.implicit && block.lines.isEmpty)

theorem isVisible_part (block : Block) : block.part.isVisible = block.isVisible := by
  rw [Section.isVisible, isVisible, part, List.isEmpty_map]

/-- The lines of a block, that of its header among them. -/
def outlines (block : Block) : List LineOutline :=
  match block.row.getLast? with
  | none => block.lines.map fun line => .pair (lineShape line)
  | some leaf =>
    if block.isVisible then
      .header block.element (block.row.dropLast.map Key.name) leaf.name ::
        block.lines.map fun line => .pair (lineShape line)
    else []

end Block

/-- The text of blocks is read as their lines. -/
theorem readsAs_textOf {parts : List Block} (fits : ∀ block ∈ parts, block.Fits) (first : Bool) :
    ReadsAs (Section.textOf first (parts.map Block.part)) (parts.flatMap Block.outlines) := by
  induction parts generalizing first with
  | nil => exact .nil
  | cons block parts ih =>
    have own := fits block List.mem_cons_self
    have others := ih fun b mem => fits b (List.mem_cons_of_mem _ mem)
    have body : ReadsAs block.part.bodyText (block.lines.map fun line => .pair (lineShape line)) :=
      readsAs_lines own.lines
    rw [List.map_cons, Section.textOf, List.flatMap_cons, Block.outlines]
    rcases List.eq_nil_or_concat block.row with row | ⟨path, leaf, row⟩
    · rw [if_pos (by simp [Block.part, row]), row]
      exact body.append (others _)
    · rw [List.concat_eq_append] at row
      rw [if_neg (by simp [Block.part, row]), Block.isVisible_part, row, List.getLast?_concat]
      simp only [List.dropLast_concat]
      split
      · have header := readsAs_header own row first
        rw [List.append_assoc, ← List.singleton_append, List.append_assoc]
        exact header.append (body.append (others _))
      · exact others first

/-- Whether a text can come after the last line of a document. -/
def Trailing (s : List Char) : Prop :=
  readTrivia false s = some (s, [])

/-- A document is read as the lines of its blocks. -/
theorem readLinesOf_textOf {parts : List Block} (fits : ∀ block ∈ parts, block.Fits)
    {trailing : List Char} (trails : Trailing trailing) (first : Bool) :
    let s := Section.textOf first (parts.map Block.part) ++ trailing
    ∃ lines, lines.map Line.outline = parts.flatMap Block.outlines ∧
      readLinesOf (s.length + 1) s = some (lines, trailing) := by
  intro s
  obtain ⟨long, reads⟩ := readsAs_textOf fits first
  obtain ⟨lines, outlines, read⟩ :=
    reads (s.length - (parts.flatMap Block.outlines).length + 1) trailing
  have fuel : (parts.flatMap Block.outlines).length +
      (s.length - (parts.flatMap Block.outlines).length + 1) = s.length + 1 := by
    have : (parts.flatMap Block.outlines).length ≤ s.length := by
      rw [List.length_append]
      omega
    omega
  refine ⟨lines, outlines, ?_⟩
  rw [fuel] at read
  rw [read, readLinesOf, trails]
  simp

end StyleMonitor.Toml
