import StyleMonitor.Proofs.Toml.Sound

/-!
# The lines of a table

The lines that a table is written on are its keys with their values, those of dotted tables among
them. Defining them again, one after the other, gives the table again, but for what has headers of
its own.
-/

namespace StyleMonitor.Toml

mutual

/-- The lines that an item is written on, as what a key below a row of dotted keys stands for. -/
def Item.linesAt (row : List Key) (key : Key) : Item → List (List Key × Key × Item)
  | .scalar decor spelling value => [(row, key, .scalar decor spelling value)]
  | .array decor items ending => [(row, key, .array decor items ending)]
  | .inline decor members ending => [(row, key, .inline decor members ending)]
  | .table heading members => if heading.dotted then linesBelow (row ++ [key]) members else []
  | .tables _ => []

/-- The lines that the members of a table are written on, below a row of dotted keys. -/
def linesBelow (row : List Key) : List (Key × Item) → List (List Key × Key × Item)
  | [] => []
  | (key, item) :: rest => item.linesAt row key ++ linesBelow row rest

end

/-- The text of a line, without its newline. -/
def lineText (line : List Key × Key × Item) : List Char :=
  rowText [] [' '] (line.1 ++ [line.2.1]) ++ '=' :: line.2.2.text [' '] []

mutual

theorem memberTexts_cons (row : List Key) (key : Key) (rest : Members) :
    ∀ item : Item, memberTexts row ((key, item) :: rest) =
      (item.linesAt row key).map lineText ++ memberTexts row rest
  | .scalar .. => rfl
  | .array .. => rfl
  | .inline .. => rfl
  | .tables .. => rfl
  | .table heading members => by
    rw [memberTexts, Item.linesAt]
    split
    · rw [memberTexts_eq]
    · rfl

theorem memberTexts_eq (row : List Key) :
    ∀ members : Members, memberTexts row members = (linesBelow row members).map lineText
  | [] => rfl
  | (key, item) :: rest => by
    rw [memberTexts_cons, linesBelow, List.map_append, memberTexts_eq row rest]

end

mutual

theorem linesAt_append (before row : List Key) (key : Key) :
    ∀ item : Item, item.linesAt (before ++ row) key =
      (item.linesAt row key).map fun line => (before ++ line.1, line.2)
  | .scalar .. => rfl
  | .array .. => rfl
  | .inline .. => rfl
  | .tables .. => rfl
  | .table heading members => by
    rw [Item.linesAt, Item.linesAt]
    split
    · rw [List.append_assoc, linesBelow_append]
    · rfl

/-- A longer row stands before each line. -/
theorem linesBelow_append (before row : List Key) :
    ∀ members : Members, linesBelow (before ++ row) members =
      (linesBelow row members).map fun line => (before ++ line.1, line.2)
  | [] => rfl
  | (key, item) :: rest => by
    rw [linesBelow, linesBelow, List.map_append, linesAt_append, linesBelow_append before row rest]

end

mutual

/-- What an item says on its lines. -/
def Item.lineShape? : Item → Option Shape
  | .scalar _ _ value => some (.scalar value)
  | .array _ items _ => some (.array (itemShapes items))
  | .inline _ members _ => some (.inline (memberShapes members))
  | .table heading members =>
    if heading.dotted then some (.table heading.implicit heading.dotted (lineShapes members))
    else none
  | .tables _ => none

/-- What is written on the lines of a table: all but what has headers. -/
def lineShapes : List (Key × Item) → Fields
  | [] => fun _ => none
  | (key, item) :: rest => fun name =>
    if key.name = name then item.lineShape? else lineShapes rest name

end

theorem lineShapes_apply (members : Members) (name : String) :
    lineShapes members name = (members.get? name).bind Item.lineShape? := by
  induction members with
  | nil => rfl
  | cons member rest ih =>
    rw [Members.get?_cons]
    show (if member.1.name = name then _ else lineShapes rest name) = _
    rw [ih]
    split <;> rfl

/-- A line below one more dotted name. -/
def underName (name : String) (line : LineShape) : LineShape :=
  (name :: line.1, line.2)

namespace Fields

/-- Fields, and others where these have none. -/
def orElse (new old : Fields) : Fields :=
  fun name => (new name).or (old name)

theorem orElse_empty (fields : Fields) : fields.orElse empty = fields := by
  funext name
  simp [orElse, empty]

theorem fill_append (first second : List LineShape) (fields : Fields) :
    fields.fill (first ++ second) = (fields.fill first).bind (fill second) := by
  rw [fill, List.foldlM_append]
  rfl

theorem define_underName {name : String} {fields members : Fields}
    (found : fields name = some (.table true true members)) (line : LineShape) :
    define line.2.1 line.2.2 (name :: line.1) fields =
      (define line.2.1 line.2.2 line.1 members).map fun changed =>
        Function.update fields name (some (.table true true changed)) := by
  simp only [define, change, found, Shape.dots, if_true, Option.map_map]
  rfl

theorem fill_underName {name : String} {fields members : Fields}
    (found : fields name = some (.table true true members)) (lines : List LineShape) :
    fill (lines.map (underName name)) fields =
      (fill lines members).map fun changed =>
        Function.update fields name (some (.table true true changed)) := by
  induction lines generalizing fields members with
  | nil => simp [fill, ← found]
  | cons line lines ih =>
    have first := define_underName found line
    rw [fill, List.map_cons, List.foldlM_cons, fill, List.foldlM_cons]
    simp only [underName] at first ⊢
    rw [first]
    cases define line.2.1 line.2.2 line.1 members with
    | none => rfl
    | some changed =>
      have rest := @ih (Function.update fields name (some (.table true true changed))) changed
        (Function.update_self ..)
      simpa [fill] using rest

/-- Lines below a name that stands for nothing yet make it a table of dotted keys. -/
theorem fill_underName_fresh {name : String} {fields : Fields} (absent : fields name = none)
    {lines : List LineShape} (some : lines ≠ []) :
    fill (lines.map (underName name)) fields =
      (fill lines empty).map fun filled =>
        Function.update fields name (Option.some (.table true true filled)) := by
  obtain ⟨line, lines, rfl⟩ := List.exists_cons_of_ne_nil some
  rw [fill, List.map_cons, List.foldlM_cons, fill, List.foldlM_cons]
  simp only [underName, define, change, absent, Shape.dots]
  show Option.bind _ _ = Option.map _ (Option.bind (define line.2.1 line.2.2 line.1 empty) _)
  cases first : define line.2.1 line.2.2 line.1 empty with
  | none => rw [show (fun _ => none : Fields) = empty from rfl, first]; rfl
  | some changed =>
    have rest := @fill_underName name (Function.update fields name (Option.some (.table true true changed)))
      changed (Function.update_self ..) lines
    rw [show (fun _ => none : Fields) = empty from rfl, first]
    simpa [fill, underName] using rest

end Fields

variable {Value : Item → Prop}

namespace Members

theorem get?_eq_none_of_not_mem {members : Members} {name : String}
    (absent : name ∉ members.map (·.1.name)) : members.get? name = none := by
  induction members with
  | nil => rfl
  | cons member rest ih =>
    rw [List.map_cons, List.mem_cons, not_or] at absent
    rw [get?_cons, if_neg (Ne.symm absent.1), ih absent.2]

theorem Sound.of_cons {key : Key} {item : Item} {rest : Members}
    (sound : Members.Sound Value ((key, item) :: rest)) :
    item.Sound Value ∧ key.name ∉ rest.map (·.1.name) ∧ rest.Sound Value := by
  have distinct := List.nodup_cons.mp sound.proper.distinct
  refine ⟨sound.items _ List.mem_cons_self, distinct.1, ⟨distinct.2, ?_⟩, ?_⟩
  · exact fun m mem => sound.proper.legible m (List.mem_cons_of_mem _ mem)
  · exact fun m mem => sound.items m (List.mem_cons_of_mem _ mem)

end Members

theorem Item.Sound.of_table {heading : Heading} {members : Members}
    (sound : Item.Sound Value (.table heading members)) :
    heading.Proper members ∧ members.Sound Value := by
  cases sound with
  | value no => cases no
  | table proper properBelow items => exact ⟨proper, properBelow, items⟩

/-- A line is written on at least one line. -/
theorem linesAt_ne_nil {item : Item} (sound : item.Sound Value) (line : item.isLine = true)
    (row : List Key) (key : Key) : item.linesAt row key ≠ [] := by
  induction sound generalizing row key with
  | @value item value _ =>
    cases item with
    | table => cases value
    | tables => cases value
    | _ => exact List.cons_ne_nil _ _
  | @table heading members proper properBelow items ih =>
    obtain ⟨⟨inner, item⟩, mem, isLine⟩ := proper.hasLine line
    have some := ih _ mem isLine (row ++ [key]) inner
    rw [Item.linesAt, if_pos (show heading.dotted = true from line)]
    clear ih items properBelow proper line
    induction members with
    | nil => cases mem
    | cons first rest ih =>
      rw [linesBelow]
      rcases List.mem_cons.mp mem with rfl | later
      · exact fun empty => some (List.append_eq_nil_iff.mp empty).1
      · exact fun empty => ih later (List.append_eq_nil_iff.mp empty).2
  | tables => cases line

theorem linesBelow_ne_nil (row : List Key) {members : Members} (sound : members.Sound Value)
    (line : members.HasLine) : linesBelow row members ≠ [] := by
  obtain ⟨⟨key, item⟩, mem, isLine⟩ := line
  have some := linesAt_ne_nil (sound.items _ mem) isLine row key
  clear sound
  induction members with
  | nil => cases mem
  | cons first rest ih =>
    rw [linesBelow]
    rcases List.mem_cons.mp mem with rfl | later
    · exact fun empty => some (List.append_eq_nil_iff.mp empty).1
    · exact fun empty => ih later (List.append_eq_nil_iff.mp empty).2

mutual

/-- Defining the lines of an item again gives what is written on them. -/
theorem fill_linesAt {key : Key} {fields : Fields} (fresh : fields key.name = none) :
    ∀ item : Item, item.Sound Value →
      fields.fill ((item.linesAt [] key).map lineShape) =
        some (Function.update fields key.name item.lineShape?)
  | .scalar .., _ => by simp [Item.linesAt, Fields.fill, lineShape, Fields.define, Fields.change, fresh,
      Shape.fresh, Item.shape, Item.lineShape?]
  | .array .., _ => by simp [Item.linesAt, Fields.fill, lineShape, Fields.define, Fields.change, fresh,
      Shape.fresh, Item.shape, Item.lineShape?]
  | .inline .., _ => by simp [Item.linesAt, Fields.fill, lineShape, Fields.define, Fields.change, fresh,
      Shape.fresh, Item.shape, Item.lineShape?]
  | .tables .., _ => by simp [Item.linesAt, Fields.fill, Item.lineShape?, ← fresh]
  | .table heading members, sound => by
    obtain ⟨proper, soundBelow⟩ := sound.of_table
    rw [Item.linesAt, Item.lineShape?]
    split
    · next dotted =>
      have some := linesBelow_ne_nil [] soundBelow (proper.hasLine dotted)
      have below := fill_linesBelow Fields.empty members soundBelow (fun _ _ => rfl)
      have prefixed : (linesBelow ([] ++ [key]) members).map lineShape =
          ((linesBelow [] members).map lineShape).map (underName key.name) := by
        have := linesBelow_append [key] [] members
        rw [List.append_nil] at this
        rw [List.nil_append, this, List.map_map, List.map_map]
        rfl
      rw [prefixed, Fields.fill_underName_fresh fresh (by simpa using some), below, Option.map_some,
        proper.implicit dotted, dotted, Fields.orElse_empty]
    · simp [Fields.fill, ← fresh]

/-- Defining the lines of a table again gives what is written on them. -/
theorem fill_linesBelow (fields : Fields) :
    ∀ members : Members, members.Sound Value →
      (∀ name ∈ members.map (·.1.name), fields name = none) →
      fields.fill ((linesBelow [] members).map lineShape) =
        some ((lineShapes members).orElse fields)
  | [], _, _ => rfl
  | (key, item) :: rest, sound, fresh => by
    obtain ⟨own, absent, soundRest⟩ := sound.of_cons
    have first := fill_linesAt (fresh key.name (by simp)) item own
    have freshRest : ∀ name ∈ rest.map (·.1.name),
        Function.update fields key.name item.lineShape? name = none := by
      intro name mem
      have other : name ≠ key.name := by
        rintro rfl
        exact absent mem
      rw [Function.update_of_ne other]
      exact fresh name (List.mem_cons_of_mem _ mem)
    rw [linesBelow, List.map_append, Fields.fill_append, first, Option.bind_some,
      fill_linesBelow _ rest soundRest freshRest]
    congr 1
    funext name
    rw [Fields.orElse, Fields.orElse, lineShapes_apply, lineShapes_apply, Members.get?_cons]
    by_cases same : key.name = name
    · subst same
      rw [Members.get?_eq_none_of_not_mem absent, if_pos rfl, Function.update_self,
        fresh key.name (by simp)]
      simp
    · rw [if_neg same, Function.update_of_ne (Ne.symm same)]

end

end StyleMonitor.Toml
