import StyleMonitor.Proofs.Toml.Blocks

/-!
# Building a document from its blocks

Adding the blocks of a tree in the order of the tree, on top of what is written on its lines, gives
the tree again.
-/

namespace StyleMonitor.Toml

namespace Block

/-- The header and the lines of a block, by their names, if there is a header to be seen. -/
def outline? (block : Block) : Option Outline :=
  block.row.getLast?.bind fun leaf =>
    if block.isVisible then
      some ⟨block.element, block.row.dropLast.map Key.name, leaf.name, block.lines.map lineShape⟩
    else none

/-- Adds a block to the fields of a document. One that is not to be seen adds nothing. -/
def addTo (block : Block) : Fields → Option Fields :=
  match block.outline? with
  | none => some
  | some outline => outline.addTo

/-- The same block below a longer row of keys. -/
def under (before : List Key) (block : Block) : Block :=
  { block with row := before ++ block.row }

@[simp] theorem isVisible_under (before : List Key) (block : Block) :
    (block.under before).isVisible = block.isVisible := rfl

@[simp] theorem row_under (before : List Key) (block : Block) :
    (block.under before).row = before ++ block.row := rfl

theorem outline?_of_not_visible {block : Block} (hidden : block.isVisible = false) :
    block.outline? = none := by
  rw [outline?]
  simp [hidden]

theorem addTo_of_not_visible {block : Block} (hidden : block.isVisible = false) :
    block.addTo = some := by
  rw [addTo, outline?_of_not_visible hidden]

/-- A block below one more key is added to the table of that key. -/
theorem addTo_under {block : Block} (visible : block.isVisible = true) (row : block.row ≠ [])
    (key : Key) : (block.under [key]).addTo = Fields.change key.name (Shape.inside block.addTo) := by
  obtain ⟨path, leaf, row⟩ := (List.eq_nil_or_concat block.row).resolve_left row
  rw [List.concat_eq_append] at row
  have own : block.outline? = some ⟨block.element, path.map Key.name, leaf.name,
      block.lines.map lineShape⟩ := by
    simp [outline?, row, visible]
  have below : (block.under [key]).outline? = some ⟨block.element, key.name :: path.map Key.name,
      leaf.name, block.lines.map lineShape⟩ := by
    rw [outline?, row_under, row, isVisible_under, visible, ← List.append_assoc,
      List.getLast?_concat, List.dropLast_concat]
    rfl
  rw [addTo, addTo, below, own]
  rfl

end Block

mutual

theorem blocksAt_append (before row : List Key) :
    ∀ item : Item, item.blocksAt (before ++ row) = (item.blocksAt row).map (Block.under before)
  | .scalar .. => rfl
  | .array .. => rfl
  | .inline .. => rfl
  | .table heading members => by
    rw [Item.blocksAt, Item.blocksAt, List.map_append, blocksBelow_append before row members]
    split <;> rfl
  | .tables elements => by
    rw [Item.blocksAt, Item.blocksAt, blocksOfElements_append before row elements]

/-- A longer row stands before each block. -/
theorem blocksBelow_append (before row : List Key) :
    ∀ members : Members,
      blocksBelow (before ++ row) members = (blocksBelow row members).map (Block.under before)
  | [] => rfl
  | (key, item) :: rest => by
    rw [blocksBelow, blocksBelow, List.map_append, List.append_assoc,
      blocksAt_append before (row ++ [key]) item, blocksBelow_append before row rest]

theorem blocksOfElements_append (before row : List Key) :
    ∀ elements : List (Heading × Members), blocksOfElements (before ++ row) elements =
      (blocksOfElements row elements).map (Block.under before)
  | [] => rfl
  | (heading, members) :: rest => by
    rw [blocksOfElements, blocksOfElements, List.map_append, List.map_cons,
      blocksBelow_append before row members, blocksOfElements_append before row rest]
    rfl

end

/-- The blocks below a key are those of its table. -/
theorem blocksBelow_singleton (key : Key) (members : Members) :
    blocksBelow [key] members = (blocksBelow [] members).map (Block.under [key]) :=
  blocksBelow_append [key] [] members

theorem blocksBelow_eq_flatMap (row : List Key) (members : Members) :
    blocksBelow row members = members.flatMap fun member => member.2.blocksAt (row ++ [member.1]) := by
  induction members with
  | nil => rfl
  | cons member rest ih => rw [blocksBelow, ih, List.flatMap_cons]

theorem blocksOfElements_eq_flatMap (row : List Key) (elements : List (Heading × Members)) :
    blocksOfElements row elements = elements.flatMap fun element =>
      ⟨element.1, row, true, linesBelow [] element.2⟩ :: blocksBelow row element.2 := by
  induction elements with
  | nil => rfl
  | cons element rest ih => rw [blocksOfElements, ih, List.flatMap_cons]

/-- The blocks at a key start their rows with it. -/
theorem row_of_mem_blocksAt {key : Key} {item : Item} {block : Block}
    (mem : block ∈ item.blocksAt [key]) : ∃ more, block.row = key :: more := by
  have := blocksAt_append [key] [] item
  rw [List.append_nil] at this
  rw [this] at mem
  obtain ⟨inner, -, rfl⟩ := List.mem_map.mp mem
  exact ⟨inner.row, rfl⟩

theorem row_of_mem_blocksBelow {members : Members} {block : Block}
    (mem : block ∈ blocksBelow [] members) :
    ∃ key ∈ members.map (·.1), ∃ more, block.row = key :: more := by
  rw [blocksBelow_eq_flatMap] at mem
  obtain ⟨member, memMember, mem⟩ := List.mem_flatMap.mp mem
  obtain ⟨more, row⟩ := row_of_mem_blocksAt mem
  exact ⟨member.1, List.mem_map_of_mem memMember, more, row⟩

theorem row_ne_nil {members : Members} {block : Block} (mem : block ∈ blocksBelow [] members) :
    block.row ≠ [] := by
  obtain ⟨key, -, more, row⟩ := row_of_mem_blocksBelow mem
  rw [row]
  exact List.cons_ne_nil _ _

/-! ### Adding blocks one after the other -/

namespace Fields

/-- Adds blocks, one after the other. -/
def build (blocks : List Block) (fields : Fields) : Option Fields :=
  blocks.foldlM (fun fields block => block.addTo fields) fields

theorem build_cons (block : Block) (blocks : List Block) (fields : Fields) :
    build (block :: blocks) fields = (block.addTo fields).bind (build blocks) := rfl

theorem build_append (first second : List Block) (fields : Fields) :
    build (first ++ second) fields = (build first fields).bind (build second) := by
  rw [build, List.foldlM_append]
  rfl

end Fields

/-- Whether a header that leads through a shape of this form changes the table in it. -/
def Shape.Opens (put : Fields → Shape) : Prop :=
  ∀ inner members, Shape.inside inner (some (put members)) = (inner members).map put

theorem Shape.opens_table (implicit dotted : Bool) : Opens (table implicit dotted) :=
  fun _ _ => rfl

/-- In an array of tables, a header leads to the last one. -/
theorem Shape.opens_tables (elements : List Fields) :
    Opens fun members => tables (elements ++ [members]) := by
  intro inner members
  simp only [inside, List.getLast?_concat, List.dropLast_concat]

namespace Fields

/-- Blocks below a key are added to the table that it stands for. -/
theorem build_under {put : Fields → Shape} (opens : Shape.Opens put) {key : Key}
    {blocks : List Block} (rows : ∀ block ∈ blocks, block.row ≠ []) {fields members : Fields}
    (found : fields key.name = some (put members)) :
    build (blocks.map (Block.under [key])) fields =
      (build blocks members).map fun built =>
        Function.update fields key.name (some (put built)) := by
  induction blocks generalizing fields members with
  | nil => simp [build, ← found]
  | cons block blocks ih =>
    have others := fun b mem => rows b (List.mem_cons_of_mem _ mem)
    rw [List.map_cons, build_cons, build_cons]
    cases visible : block.isVisible with
    | false =>
      rw [Block.addTo_of_not_visible visible, Block.addTo_of_not_visible
        (by rw [Block.isVisible_under, visible])]
      exact ih others found
    | true =>
      rw [Block.addTo_under visible (rows block List.mem_cons_self), change, found, opens]
      cases block.addTo members with
      | none => rfl
      | some built =>
        simp only [Option.map_some, Option.bind_some]
        rw [ih others (Function.update_self ..)]
        simp

/-- Blocks below a key that stands for nothing yet make it a table that is only mentioned. -/
theorem build_under_fresh {key : Key} {blocks : List Block}
    (rows : ∀ block ∈ blocks, block.row ≠ []) (some : ∃ block ∈ blocks, block.isVisible = true)
    {fields : Fields} (absent : fields key.name = none) :
    build (blocks.map (Block.under [key])) fields =
      (build blocks empty).map fun built =>
        Function.update fields key.name (Option.some (.table true false built)) := by
  induction blocks with
  | nil => simp at some
  | cons block blocks ih =>
    have others := fun b mem => rows b (List.mem_cons_of_mem _ mem)
    rw [List.map_cons, build_cons, build_cons]
    cases visible : block.isVisible with
    | false =>
      rw [Block.addTo_of_not_visible visible, Block.addTo_of_not_visible
        (by rw [Block.isVisible_under, visible])]
      exact ih others (by simpa [visible] using some)
    | true =>
      rw [Block.addTo_under visible (rows block List.mem_cons_self), change, absent]
      show Option.bind (Option.map _ (Option.map _ (block.addTo empty))) _ = _
      cases block.addTo empty with
      | none => rfl
      | some built =>
        simp only [Option.map_some, Option.bind_some]
        rw [build_under (Shape.opens_table true false) others (Function.update_self ..)]
        simp

end Fields

/-! ### The whole tree -/

variable {Value : Item → Prop}

namespace Members

/-- A table none of which is written on lines has no lines. -/
theorem linesBelow_eq_nil {members : Members}
    (none : ∀ member ∈ members, member.2.isLine = false) (row : List Key) :
    linesBelow row members = [] := by
  induction members with
  | nil => rfl
  | cons member rest ih =>
    have own := none member List.mem_cons_self
    rw [linesBelow, ih fun m mem => none m (List.mem_cons_of_mem _ mem), List.append_nil]
    obtain ⟨key, item⟩ := member
    cases item with
    | table heading below => rw [Item.linesAt, if_neg (by simpa [Item.isLine] using own)]
    | tables => rfl
    | _ => cases own

theorem lineShapes_eq_empty {members : Members}
    (none : ∀ member ∈ members, member.2.isLine = false) : lineShapes members = Fields.empty := by
  induction members with
  | nil => rfl
  | cons member rest ih =>
    obtain ⟨key, item⟩ := member
    have own := none _ List.mem_cons_self
    funext name
    show (if key.name = name then item.lineShape? else lineShapes rest name) = _
    rw [ih fun m mem => none m (List.mem_cons_of_mem _ mem)]
    split
    · cases item with
      | table heading below => rw [Item.lineShape?, if_neg (by simpa [Item.isLine] using own)]; rfl
      | tables => rfl
      | _ => cases own
    · rfl

end Members

/-- Of a table that is not written on lines, there is a header to be seen. -/
theorem exists_visible {item : Item} (sound : item.Sound Value) (headed : item.isLine = false)
    (row : List Key) :
    ∃ block ∈ item.blocksAt row, block.isVisible = true := by
  induction sound generalizing row with
  | value value => rw [Item.isLine_of_isValue value] at headed; cases headed
  | @table heading members proper properBelow items ih =>
    have plain : heading.dotted = false := headed
    rw [Item.blocksAt, if_neg (by simp [plain])]
    cases implicit : heading.implicit with
    | false => exact ⟨_, List.mem_cons_self, by simp [Block.isVisible, implicit]⟩
    | true =>
      obtain ⟨member, mem⟩ := List.exists_mem_of_ne_nil _ (proper.mentioned implicit)
      obtain ⟨block, memBlock, visible⟩ := ih member mem (proper.noLine implicit plain member mem)
        (row ++ [member.1])
      have memBelow : block ∈ blocksBelow row members := by
        rw [blocksBelow_eq_flatMap]
        exact List.mem_flatMap.mpr ⟨member, mem, memBlock⟩
      exact ⟨block, List.mem_cons_of_mem _ memBelow, visible⟩
  | @tables elements some =>
    obtain ⟨⟨heading, members⟩, rest, rfl⟩ := List.exists_cons_of_ne_nil some
    exact ⟨_, List.mem_cons_self, rfl⟩

/-- What an array of tables stands for after so many of its elements were added. -/
def Shape.elements (done : List Fields) : Option Shape :=
  if done.isEmpty then none else some (.tables done)

theorem Shape.added_elements (fill : Fields → Option Fields) (done : List Fields) :
    Shape.added fill (Shape.elements done) =
      (fill Fields.empty).map fun filled => .tables (done ++ [filled]) := by
  cases done <;> rfl

theorem over_lineShapes (members : Members) :
    (memberShapes members).orElse (lineShapes members) = memberShapes members := by
  funext name
  rw [Fields.orElse, memberShapes_apply, lineShapes_apply]
  cases members.get? name <;> simp

theorem fill_lines {members : Members} (sound : members.Sound Value) :
    Fields.empty.fill ((linesBelow [] members).map lineShape) = some (lineShapes members) := by
  rw [fill_linesBelow Fields.empty members sound (fun _ _ => rfl), Fields.orElse_empty]

/-- The header of a table opens it with its lines. -/
theorem build_header (key : Key) {heading : Heading} {members : Members} {fields : Fields}
    (own : heading.implicit = false) (sound : members.Sound Value)
    (absent : fields key.name = none) :
    Fields.build [⟨heading, [key], false, linesBelow [] members⟩] fields =
      some (Function.update fields key.name (some (.table false false (lineShapes members)))) := by
  have outline : Block.outline? ⟨heading, [key], false, linesBelow [] members⟩ =
      some ⟨false, [], key.name, (linesBelow [] members).map lineShape⟩ := by
    simp [Block.outline?, Block.isVisible, own]
  rw [Fields.build_cons, Block.addTo, outline]
  show ((Shape.opened _ (fields key.name)).map _).bind _ = _
  rw [absent]
  show (((Fields.fill _ Fields.empty).map _).map _).bind _ = _
  rw [fill_lines sound]
  rfl

/-- The header of an element adds it to the array with its lines. -/
theorem build_elementHeader (key : Key) (heading : Heading) {members : Members} {fields : Fields}
    {done : List Fields} (sound : members.Sound Value)
    (found : fields key.name = Shape.elements done) :
    Block.addTo ⟨heading, [key], true, linesBelow [] members⟩ fields =
      some (Function.update fields key.name (some (.tables (done ++ [lineShapes members])))) := by
  have outline : Block.outline? ⟨heading, [key], true, linesBelow [] members⟩ =
      some ⟨true, [], key.name, (linesBelow [] members).map lineShape⟩ := by
    simp [Block.outline?, Block.isVisible]
  rw [Block.addTo, outline]
  show (Shape.added _ (fields key.name)).map _ = _
  rw [found, Shape.added_elements, fill_lines sound]
  rfl

mutual

/-- Adding the blocks of an item to what is written on its lines gives the item. -/
theorem build_blocksAt (key : Key) (fields : Fields) :
    ∀ item : Item, item.Sound Value → fields key.name = item.lineShape? →
      Fields.build (item.blocksAt [key]) fields =
        some (Function.update fields key.name (some item.shape))
  | .scalar .., _, found => by
    rw [Function.update_eq_self_iff.mpr (by rw [found]; rfl)]
    rfl
  | .array .., _, found => by
    rw [Function.update_eq_self_iff.mpr (by rw [found]; rfl)]
    rfl
  | .inline .., _, found => by
    rw [Function.update_eq_self_iff.mpr (by rw [found]; rfl)]
    rfl
  | .tables elements, sound, found => by
    cases sound with
    | value no => cases no
    | tables some _ propers items =>
      have := build_blocksOfElements key fields [] elements
        (fun e mem => ⟨propers e mem, items e mem⟩) found
      rw [Item.blocksAt, this, List.nil_append, Item.shape]
      obtain ⟨element, rest, rfl⟩ := List.exists_cons_of_ne_nil some
      rfl
  | .table heading members, sound, found => by
    obtain ⟨proper, soundBelow⟩ := sound.of_table
    have below := build_blocksBelow (lineShapes members) members soundBelow (fun _ _ => rfl)
    rw [over_lineShapes] at below
    rw [Item.lineShape?] at found
    rw [Item.blocksAt, Fields.build_append, blocksBelow_singleton, Item.shape]
    cases dotted : heading.dotted with
    | true =>
      rw [if_pos dotted] at found
      rw [if_pos rfl]
      show Fields.build _ fields = _
      rw [Fields.build_under (Shape.opens_table _ _) (fun _ => row_ne_nil) found, below, dotted]
      rfl
    | false =>
      rw [if_neg (by simp [dotted])] at found
      rw [if_neg (by simp)]
      cases implicit : heading.implicit with
      | false =>
        have header := build_header key implicit soundBelow found
        rw [header, Option.bind_some,
          Fields.build_under (Shape.opens_table _ _) (fun _ => row_ne_nil) (Function.update_self ..),
          below]
        simp
      | true =>
        have headed := proper.noLine implicit dotted
        have hidden : Block.isVisible ⟨heading, [key], false, linesBelow [] members⟩ = false := by
          simp [Block.isVisible, implicit, Members.linesBelow_eq_nil headed]
        obtain ⟨member, mem⟩ := List.exists_mem_of_ne_nil _ (proper.mentioned implicit)
        obtain ⟨block, memBlock, visible⟩ := exists_visible (soundBelow.items member mem)
          (headed member mem) [member.1]
        have seen : ∃ block ∈ blocksBelow [] members, block.isVisible = true := by
          refine ⟨block, ?_, visible⟩
          rw [blocksBelow_eq_flatMap]
          exact List.mem_flatMap.mpr ⟨member, mem, memBlock⟩
        rw [Members.lineShapes_eq_empty headed] at below
        show ((Block.addTo _ fields).bind some).bind _ = _
        rw [Block.addTo_of_not_visible hidden, Option.bind_some, Option.bind_some,
          Fields.build_under_fresh (fun _ => row_ne_nil) seen found, below]
        rfl

/-- Adding the blocks of a table to what is written on its lines gives the table. -/
theorem build_blocksBelow (fields : Fields) :
    ∀ members : Members, members.Sound Value →
      (∀ name ∈ members.map (·.1.name), fields name = lineShapes members name) →
      Fields.build (blocksBelow [] members) fields = some ((memberShapes members).orElse fields)
  | [], _, _ => rfl
  | (key, item) :: rest, sound, found => by
    obtain ⟨own, absent, soundRest⟩ := sound.of_cons
    have first := build_blocksAt key fields item own
      (by rw [found key.name List.mem_cons_self]; exact if_pos rfl)
    have foundRest : ∀ name ∈ rest.map (·.1.name),
        Function.update fields key.name (some item.shape) name = lineShapes rest name := by
      intro name mem
      have other : key.name ≠ name := by
        rintro rfl
        exact absent mem
      rw [Function.update_of_ne (Ne.symm other), found name (List.mem_cons_of_mem _ mem)]
      exact if_neg other
    rw [blocksBelow, List.nil_append, Fields.build_append, first, Option.bind_some,
      build_blocksBelow _ rest soundRest foundRest]
    congr 1
    funext name
    show (memberShapes rest name).or _ = (if key.name = name then _ else memberShapes rest name).or _
    by_cases same : key.name = name
    · subst same
      rw [if_pos rfl, Function.update_self, memberShapes_apply,
        Members.get?_eq_none_of_not_mem absent]
      rfl
    · rw [if_neg same, Function.update_of_ne (Ne.symm same)]

theorem build_blocksOfElements (key : Key) (fields : Fields) (done : List Fields) :
    ∀ elements : List (Heading × Members), (∀ element ∈ elements, Members.Sound Value element.2) →
      fields key.name = Shape.elements done →
      Fields.build (blocksOfElements [key] elements) fields =
        some (Function.update fields key.name (Shape.elements (done ++ elementShapes elements)))
  | [], _, found => by
    rw [elementShapes, List.append_nil, ← found, Function.update_eq_self]
    rfl
  | (heading, members) :: rest, sound, found => by
    have soundBelow := sound _ List.mem_cons_self
    have header := build_elementHeader key heading soundBelow found
    have below := build_blocksBelow (lineShapes members) members soundBelow (fun _ _ => rfl)
    rw [over_lineShapes] at below
    have others := build_blocksOfElements key
      (Function.update fields key.name (some (.tables (done ++ [memberShapes members]))))
      (done ++ [memberShapes members]) rest (fun e mem => sound e (List.mem_cons_of_mem _ mem))
      (by rw [Function.update_self, Shape.elements, if_neg (by simp)])
    rw [blocksOfElements, List.cons_append, Fields.build_cons, header, Option.bind_some,
      Fields.build_append, blocksBelow_singleton,
      Fields.build_under (Shape.opens_tables done) (fun _ => row_ne_nil) (Function.update_self ..),
      below, Option.map_some, Option.bind_some, Function.update_idem, others, Function.update_idem,
      elementShapes, List.append_assoc, List.singleton_append]

end

end StyleMonitor.Toml
