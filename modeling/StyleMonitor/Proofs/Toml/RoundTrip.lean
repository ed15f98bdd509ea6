import StyleMonitor.Proofs.Toml.Reading

/-!
# Reading what was written

The text of a sound document is read as a document that says the same.
-/

namespace StyleMonitor.Toml

/-! ### Lines grouped below their headers -/

/-- What lines say, grouped below their headers. -/
def groupOutlines : List LineOutline → List LineShape × List Outline
  | [] => ([], [])
  | .pair line :: rest =>
    let (lines, outlines) := groupOutlines rest
    (line :: lines, outlines)
  | .header element path leaf :: rest =>
    let (lines, outlines) := groupOutlines rest
    ([], ⟨element, path, leaf, lines⟩ :: outlines)

theorem outline_group (number : Nat) (lines : List Line) :
    ((group number lines).1.map lineShape, (group number lines).2.map Part.outline) =
      groupOutlines (lines.map Line.outline) := by
  induction lines generalizing number with
  | nil => rfl
  | cons line lines ih =>
    cases line with
    | pair path leaf item =>
      show (_, _) = ((_ :: (groupOutlines _).1, (groupOutlines _).2) : _ × _)
      rw [← ih number]
      rfl
    | header element decor path leaf =>
      show (_, _) = (([], (⟨_, _, _, (groupOutlines _).1⟩ : Outline) :: (groupOutlines _).2) : _ × _)
      rw [← ih (number + 1)]
      rfl

theorem own_of_mem_group {number : Nat} {lines : List Line} :
    ∀ part ∈ (group number lines).2, part.heading.implicit = false ∧ part.heading.dotted = false := by
  induction lines generalizing number with
  | nil => exact List.forall_mem_nil _
  | cons line lines ih =>
    cases line with
    | pair => exact ih
    | header => exact List.forall_mem_cons.mpr ⟨⟨rfl, rfl⟩, ih⟩

theorem groupOutlines_pairs (lines : List LineShape) (rest : List LineOutline) :
    groupOutlines (lines.map .pair ++ rest) =
      (lines ++ (groupOutlines rest).1, (groupOutlines rest).2) := by
  induction lines with
  | nil => rfl
  | cons line lines ih =>
    rw [List.map_cons, List.cons_append, groupOutlines, ih]
    rfl

/-- The lines of a block are its header and the lines below it. -/
theorem Block.outlines_eq {block : Block} (row : block.row ≠ []) :
    block.outlines = (block.outline?.toList).flatMap fun outline =>
      .header outline.element outline.path outline.leaf :: outline.lines.map .pair := by
  rw [Block.outlines, Block.outline?]
  cases last : block.row.getLast? with
  | none => exact absurd (List.getLast?_eq_none_iff.mp last) row
  | some leaf =>
    show (if block.isVisible then _ else _) =
      (Option.toList (if block.isVisible then some _ else none)).flatMap _
    split <;> simp

theorem groupOutlines_blocks {parts : List Block} (rows : ∀ block ∈ parts, block.row ≠ []) :
    groupOutlines (parts.flatMap Block.outlines) = ([], parts.filterMap Block.outline?) := by
  induction parts with
  | nil => rfl
  | cons block parts ih =>
    rw [List.forall_mem_cons] at rows
    rw [List.flatMap_cons, Block.outlines_eq rows.1, List.filterMap_cons]
    cases block.outline? with
    | none => exact ih rows.2
    | some outline =>
      rw [Option.toList_some, List.flatMap_singleton, List.cons_append, groupOutlines,
        groupOutlines_pairs, ih rows.2]
      simp

theorem Fields.build_eq (parts : List Block) (fields : Fields) :
    fields.build parts =
      (parts.filterMap Block.outline?).foldlM (fun fields outline => outline.addTo fields) fields := by
  induction parts generalizing fields with
  | nil => rfl
  | cons block parts ih =>
    rw [build_cons, List.filterMap_cons, Block.addTo]
    cases block.outline? with
    | none => exact ih fields
    | some outline =>
      rw [List.foldlM_cons]
      show _ = Option.bind _ _
      congr 1
      funext added
      exact ih added

theorem memberShapes_parts {parts : List Part}
    (own : ∀ part ∈ parts, part.heading.implicit = false ∧ part.heading.dotted = false)
    (top : Members) :
    (parts.foldlM (fun (top : Members) (part : Part) => part.addTo top) top).map memberShapes =
      (parts.map Part.outline).foldlM (fun fields outline => outline.addTo fields)
        (memberShapes top) := by
  induction parts generalizing top with
  | nil => rfl
  | cons part parts ih =>
    rw [List.forall_mem_cons] at own
    rw [List.map_cons, List.foldlM_cons, List.foldlM_cons,
      ← memberShapes_addTo own.1.1 own.1.2 top]
    cases part.addTo top with
    | none => rfl
    | some added => exact ih own.2 added

/-- Lines of a top and of blocks give what defining and adding these gives. -/
theorem memberShapes_ofLines {lines : List Line} {top : List LineShape} {parts : List Block}
    (rows : ∀ block ∈ parts, block.row ≠ [])
    (outlines : lines.map Line.outline = top.map .pair ++ parts.flatMap Block.outlines) :
    (Document.ofLines? lines).map memberShapes =
      (Fields.empty.fill top).bind (Fields.build parts) := by
  have grouped := outline_group 1 lines
  rw [outlines, groupOutlines_pairs, groupOutlines_blocks rows, List.append_nil, Prod.mk.injEq]
    at grouped
  have filled := memberShapes_fill (group 1 lines).1 []
  rw [grouped.1] at filled
  show (Option.bind _ _).map _ = Option.bind (Fields.fill top (memberShapes [])) _
  rw [← filled]
  cases fill (group 1 lines).1 [] with
  | none => rfl
  | some members =>
    rw [Option.bind_some, memberShapes_parts own_of_mem_group, grouped.2, Option.map_some,
      Option.bind_some, Fields.build_eq]

/-! ### Numbers -/

namespace Block

/-- Numbers blocks as their sections are numbered. -/
def numbered : Nat → List Block → List (Nat × Block)
  | _, [] => []
  | last, block :: rest =>
    let number := block.heading.position.getD last
    (number, block) :: numbered number rest

/-- Blocks in the order of their numbers. -/
def ordered (parts : List Block) : List Block :=
  ((numbered 0 parts).mergeSort fun a b => a.1 ≤ b.1).map (·.2)

theorem numbered_part (last : Nat) (parts : List Block) :
    Section.numbered last (parts.map part) =
      (numbered last parts).map fun numbered => (numbered.1, numbered.2.part) := by
  induction parts generalizing last with
  | nil => rfl
  | cons block parts ih =>
    rw [List.map_cons, Section.numbered, ih, numbered]
    rfl

theorem ordered_part (parts : List Block) :
    Section.ordered (parts.map part) = (ordered parts).map part := by
  have sorted := List.map_mergeSort (r := fun a b : Nat × Block => decide (a.1 ≤ b.1))
    (s := fun a b : Nat × Section => decide (a.1 ≤ b.1))
    (f := fun numbered : Nat × Block => (numbered.1, numbered.2.part)) (l := numbered 0 parts)
    (fun _ _ _ _ => rfl)
  rw [Section.ordered, ordered, numbered_part, ← sorted, List.map_map, List.map_map]
  rfl

theorem map_numbered (last : Nat) (parts : List Block) :
    (numbered last parts).map (·.2) = parts := by
  induction parts generalizing last with
  | nil => rfl
  | cons block parts ih => rw [numbered, List.map_cons, ih]

theorem position_of_mem_numbered {last : Nat} {parts : List Block} {numbered : Nat × Block}
    (mem : numbered ∈ Block.numbered last parts) {n : Nat}
    (position : numbered.2.heading.position = some n) : numbered.1 = n := by
  induction parts generalizing last with
  | nil => cases mem
  | cons block parts ih =>
    rw [Block.numbered] at mem
    rcases List.mem_cons.mp mem with rfl | later
    · show block.heading.position.getD last = n
      rw [position, Option.getD_some]
    · exact ih later

end Block

/-- Blocks that keep their places can be added in the order of their numbers. -/
theorem Fields.build_numbered {parts : List Block} (keeps : parts.Pairwise Block.Keeps) (last : Nat)
    {fields built : Fields} (result : fields.build parts = some built) :
    fields.build (((Block.numbered last parts).mergeSort fun a b => a.1 ≤ b.1).map (·.2)) =
      some built := by
  refine build_mergeSort ?_ (by rw [Block.map_numbered, result])
  rw [← Block.map_numbered last parts, List.pairwise_map] at keeps
  refine keeps.imp_of_mem fun {a b} memA memB keep => ?_
  rcases keep with ⟨m, n, position, position', le⟩ | swaps
  · rw [Block.position_of_mem_numbered memA position, Block.position_of_mem_numbered memB position']
    exact Or.inl le
  · exact Or.inr swaps

/-! ### The text of a document -/

/-- The block of the top of a document. -/
def topBlock (members : Members) : Block :=
  ⟨{}, [], false, linesBelow [] members⟩

/-- The blocks of the tables of a document, in the order of their numbers. -/
def orderedBelow (members : Members) : List Block :=
  ((Block.numbered 0 (blocksBelow [] members)).mergeSort fun a b => a.1 ≤ b.1).map (·.2)

theorem orderedBelow_perm (members : Members) :
    (orderedBelow members).Perm (blocksBelow [] members) := by
  have sorted := (List.mergeSort_perm (Block.numbered 0 (blocksBelow [] members))
    fun a b => decide (a.1 ≤ b.1)).map (·.2)
  rwa [Block.map_numbered] at sorted

/-- The top of a document comes first. -/
theorem ordered_blocks (members : Members) :
    Block.ordered (blocks members) = topBlock members :: orderedBelow members := by
  rw [Block.ordered, blocks, Block.numbered, orderedBelow]
  show List.map _ (List.mergeSort ((0, topBlock members) :: Block.numbered 0 (blocksBelow [] members)) _) = _
  rw [mergeSort_cons_eq]
  cases (Block.numbered 0 (blocksBelow [] members)).mergeSort fun a b => a.1 ≤ b.1 with
  | nil => rfl
  | cons first rest => rw [List.orderedInsert_cons, if_pos (Nat.zero_le _), List.map_cons]

/-- Adding the blocks of a tree in their order gives the tree. -/
theorem build_orderedBelow {Value : Item → Prop} {members : Members} (sound : members.Sound Value)
    {last : Nat} (dated : members.Dated 0 last) :
    (lineShapes members).build (orderedBelow members) = some (memberShapes members) := by
  have keeps := pairwise_blocksBelow sound.proper fun member mem =>
    pairwise_blocksAt (dated member mem) (sound.items member mem) member.1
  have built := build_blocksBelow _ members sound fun _ _ => rfl
  rw [over_lineShapes] at built
  exact Fields.build_numbered keeps 0 built

namespace Document

theorem text_eq (document : Document) :
    document.text = String.ofList (Section.textOf true
      ((topBlock document.top :: orderedBelow document.top).map Block.part) ++
        document.trailing) := by
  rw [text, sections_eq, Block.ordered_part, ordered_blocks]

end Document

/-- The blocks of a sound tree can be read again. -/
theorem fits_blocksAt {item : Item} (sound : item.Sound Item.OnLine) {row : List Key}
    (legible : ∀ key ∈ row, key.Legible) : ∀ block ∈ item.blocksAt row, block.Fits := by
  induction sound generalizing row with
  | @value item value =>
    cases item with
    | table => cases value
    | tables => cases value
    | _ => nofun
  | @table heading members proper properBelow items ih =>
    rw [Item.blocksAt, List.forall_mem_append, blocksBelow_eq_flatMap]
    constructor
    · split
      · nofun
      · exact List.forall_mem_singleton.mpr
          ⟨lineFits_linesBelow (by simp) members ⟨properBelow, items⟩, legible, proper.before, proper.after⟩
    · intro block mem
      obtain ⟨member, memMember, mem⟩ := List.mem_flatMap.mp mem
      exact ih member memMember (List.forall_mem_append.mpr
        ⟨legible, List.forall_mem_singleton.mpr (properBelow.legible member memMember)⟩) block mem
  | @tables elements _ headings propers items ih =>
    rw [Item.blocksAt, blocksOfElements_eq_flatMap]
    intro block mem
    obtain ⟨element, memElement, mem⟩ := List.mem_flatMap.mp mem
    have proper := (headings element memElement).1
    have properBelow := propers element memElement
    rcases List.mem_cons.mp mem with rfl | mem
    · exact ⟨lineFits_linesBelow (by simp) element.2 ⟨properBelow, items element memElement⟩, legible,
        proper.before, proper.after⟩
    · rw [blocksBelow_eq_flatMap] at mem
      obtain ⟨member, memMember, mem⟩ := List.mem_flatMap.mp mem
      exact ih element memElement member memMember (List.forall_mem_append.mpr
        ⟨legible, List.forall_mem_singleton.mpr (properBelow.legible member memMember)⟩) block mem

theorem fits_topBlock {members : Members} (sound : members.Sound Item.OnLine) :
    (topBlock members).Fits :=
  ⟨lineFits_linesBelow (by simp) members sound, nofun, rfl, .nil⟩

theorem fits_blocksBelow {members : Members} (sound : members.Sound Item.OnLine) :
    ∀ block ∈ blocksBelow [] members, block.Fits := by
  rw [blocksBelow_eq_flatMap]
  intro block mem
  obtain ⟨member, memMember, mem⟩ := List.mem_flatMap.mp mem
  exact fits_blocksAt (sound.items member memMember)
    (by simpa using sound.proper.legible member memMember) block mem

/-! ### Texts that are read as they stand -/

/-- No row of keys starts with such a character. -/
theorem readRow_eq_none {c : Char} (notBlank : isBlank c = false) (notKey : isKeyChar c = false)
    (notQuote : isQuote c = false) (before rest : List Char) : readRow before (c :: rest) = none := by
  have other : ∀ d, isQuote d = true → c ≠ d := by
    rintro d quote rfl
    rw [notQuote] at quote
    cases quote
  have none : readName (c :: rest) = none := by
    simp [readName, other '"' (by decide), other '\'' (by decide), notKey]
  rw [readRow, readKey, List.dropWhile_cons_of_neg (by simp [notBlank]), none]
  rfl

namespace Document

theorem normal_eq {s : List Char} (clean : '\r' ∉ s) : normal s = s := by
  induction s with
  | nil => rfl
  | cons c s ih =>
    rw [List.mem_cons, not_or] at clean
    have rest := ih clean.2
    cases s <;> simp_all [normal, Ne.symm clean.1]

theorem unmarked_of_readLinesOf {fuel : Nat} {s : List Char} {read : List Line × List Char}
    (reads : readLinesOf fuel s = some read) : unmarked s = s := by
  have unread : ∀ rest fuel, readLinesOf fuel ('\uFEFF' :: rest) = none := by
    intro rest fuel
    cases fuel with
    | zero => rfl
    | succ fuel =>
      have none : readRow [] ('\uFEFF' :: rest) = none :=
        readRow_eq_none (by decide) (by decide) (by decide) [] rest
      have readT : readTrivia false ('\uFEFF' :: rest) = some ([], '\uFEFF' :: rest) := by
        simp [readTrivia, isBlank]
      simp [readLinesOf, readT, readPair, none]
  rw [unmarked]
  rintro rest rfl
  rw [unread] at reads
  cases reads

/-- A text that is read as lines is read as the document of these. -/
theorem ofText?_of_lines {s trailing : List Char} {lines : List Line}
    (read : readLinesOf (s.length + 1) s = some (lines, trailing)) :
    ofText? (String.ofList s) = (ofLines? lines).map fun top => ⟨top, trailing⟩ := by
  have clean := (readLinesOf_some read).2.2
  rw [ofText?_eq, String.toList_ofList, unmarked_of_readLinesOf read, normal_eq clean, read]
  rfl

/-- The text of a sound document is read as a document that says the same. -/
theorem Sound.ofText?_text {document : Document} (sound : document.Sound) :
    ∃ again, ofText? document.text = some again ∧ again.trailing = document.trailing ∧
      memberShapes again.top = memberShapes document.top := by
  obtain ⟨last, dated⟩ := sound.dated
  have fits : ∀ block ∈ topBlock document.top :: orderedBelow document.top, block.Fits :=
    List.forall_mem_cons.mpr ⟨fits_topBlock sound.top, fun block mem =>
      fits_blocksBelow sound.top block ((orderedBelow_perm _).mem_iff.mp mem)⟩
  have rows : ∀ block ∈ orderedBelow document.top, block.row ≠ [] := by
    intro block mem
    exact row_ne_nil ((orderedBelow_perm _).mem_iff.mp mem)
  obtain ⟨lines, outlines, read⟩ := readLinesOf_textOf fits sound.trailing true
  have grouped : lines.map Line.outline = ((linesBelow [] document.top).map lineShape).map .pair ++
      (orderedBelow document.top).flatMap Block.outlines := by
    rw [outlines, List.flatMap_cons, List.map_map]
    rfl
  have tree := memberShapes_ofLines rows grouped
  rw [fill_lines sound.top, Option.bind_some, build_orderedBelow sound.top dated,
    Option.map_eq_some_iff] at tree
  obtain ⟨top, ofLines, same⟩ := tree
  refine ⟨⟨top, document.trailing⟩, ?_, rfl, same⟩
  rw [text_eq, ofText?_of_lines read, ofLines, Option.map_some]

end Document

end StyleMonitor.Toml
