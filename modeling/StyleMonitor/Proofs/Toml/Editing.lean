import StyleMonitor.Proofs.Toml.RoundTrip
import StyleMonitor.Toml.Edit

/-!
# Editing a document

Giving a setting of a table a value keeps a document sound, and changes what it says at this one
place. A table that has no header so far gets one when a line is added below it: its number is the
one that the text is written by.
-/

namespace StyleMonitor.Toml

/-! ### What is to be seen of a heading -/

namespace Section

/-- A section with nothing in its heading but what is to be seen in the text. -/
def seen (part : Section) : Section :=
  { part with heading := { decor := part.heading.decor, implicit := !part.isVisible } }

theorem isVisible_seen (part : Section) : part.seen.isVisible = part.isVisible := by
  rw [seen, isVisible, isVisible]
  cases part.element <;> cases part.heading.implicit <;> cases part.lines.isEmpty <;> rfl

theorem textOf_seen (first : Bool) (parts : List Section) :
    textOf first (parts.map seen) = textOf first parts := by
  induction parts generalizing first with
  | nil => rfl
  | cons part parts ih =>
    rw [List.map_cons, textOf, textOf, isVisible_seen, ih, ih, ih]
    rfl

/-- The number of the last section, or of what comes before. -/
def lastNumber (last : Nat) (parts : List Section) : Nat :=
  parts.foldl (fun last part => part.heading.position.getD last) last

theorem numbered_append (last : Nat) (first second : List Section) :
    numbered last (first ++ second) = numbered last first ++ numbered (lastNumber last first) second := by
  induction first generalizing last with
  | nil => rfl
  | cons part first ih => rw [List.cons_append, numbered, ih, numbered]; rfl

/-- Sections that look the same and have the same numbers have the same text. -/
theorem textOf_ordered {parts others : List Section}
    (same : (numbered 0 parts).map (fun numbered => (numbered.1, numbered.2.seen)) =
      (numbered 0 others).map fun numbered => (numbered.1, numbered.2.seen)) (first : Bool) :
    textOf first (ordered parts) = textOf first (ordered others) := by
  have sorted : ∀ parts : List Section, (ordered parts).map seen =
      (((numbered 0 parts).map fun numbered => (numbered.1, numbered.2.seen)).mergeSort
        fun a b => decide (a.1 ≤ b.1)).map (·.2) := by
    intro parts
    have sorted := List.map_mergeSort (r := fun a b : Nat × Section => decide (a.1 ≤ b.1))
      (s := fun a b : Nat × Section => decide (a.1 ≤ b.1))
      (f := fun numbered : Nat × Section => (numbered.1, numbered.2.seen)) (l := numbered 0 parts)
      (fun _ _ _ _ => rfl)
    rw [← sorted, ordered, List.map_map, List.map_map]
    rfl
  rw [← textOf_seen first (ordered parts), ← textOf_seen first (ordered others), sorted, sorted, same]

end Section

/-- A heading with a header of its own and a number, unless it is one of dotted keys. -/
def Heading.shown (number : Nat) (heading : Heading) : Heading :=
  if heading.dotted then heading
  else { heading with implicit := false, position := some (heading.position.getD number) }

theorem Heading.shown_of_dotted {heading : Heading} (dotted : heading.dotted = true) (number : Nat) :
    heading.shown number = heading := by
  rw [shown, if_pos dotted]

theorem linesBelow_eq_flatMap (row : List Key) (members : Members) :
    linesBelow row members = members.flatMap fun member => member.2.linesAt row member.1 := by
  induction members with
  | nil => rfl
  | cons member rest ih => rw [linesBelow, ih, List.flatMap_cons]

/-- The text of a table with lines is that of one with a header and the number that it is written
by. -/
theorem text_shown (before after : Members) (key : Key) (heading : Heading) {members : Members}
    (lines : linesBelow [] members ≠ []) (trailing : List Char) :
    ∃ number, Document.text ⟨before ++ (key, .table heading members) :: after, trailing⟩ =
      Document.text ⟨before ++ (key, .table (heading.shown number) members) :: after, trailing⟩ := by
  cases dotted : heading.dotted with
  | true => exact ⟨0, by rw [Heading.shown_of_dotted dotted]⟩
  | false =>
    set start := (topBlock (before ++ after) :: blocksBelow [] before).map Block.part with startDef
    set number := Section.lastNumber 0 start with numberDef
    have blocksOf : ∀ own : Heading, own.dotted = false →
        blocks (before ++ (key, .table own members) :: after) =
          (topBlock (before ++ after) :: blocksBelow [] before) ++
            (⟨own, [key], false, linesBelow [] members⟩ ::
              (blocksBelow [key] members ++ blocksBelow [] after)) := by
      intro own plain
      rw [blocks, topBlock, linesBelow_eq_flatMap, linesBelow_eq_flatMap, blocksBelow_eq_flatMap,
        blocksBelow_eq_flatMap, blocksBelow_eq_flatMap [] after]
      simp [Item.linesAt, Item.blocksAt, plain]
    have shown : heading.shown number =
        { heading with implicit := false, position := some (heading.position.getD number) } := by
      rw [Heading.shown, if_neg (by simp [dotted])]
    have some : ((linesBelow [] members).map lineText).isEmpty = false := by simpa using lines
    have seen : ∀ own : Heading, own.decor = heading.decor →
        (Block.part ⟨own, [key], false, linesBelow [] members⟩).seen =
          ⟨{ decor := heading.decor }, [key], false, (linesBelow [] members).map lineText⟩ := by
      intro own same
      simp only [Block.part, Section.seen, Section.isVisible, some, same, Bool.and_false,
        Bool.not_false, Bool.or_true, Bool.not_true]
    refine ⟨number, ?_⟩
    rw [Document.text, Document.text, sections_eq, sections_eq, blocksOf heading dotted,
      blocksOf (heading.shown number) (by rw [shown]; exact dotted), List.map_append, List.map_append,
      ← startDef]
    congr 2
    refine Section.textOf_ordered ?_ true
    have same : (Block.part ⟨heading.shown number, [key], false, linesBelow [] members⟩).heading.position.getD
        number = heading.position.getD number := by
      rw [Block.part, shown, Option.getD_some]
    simp only [Section.numbered_append, ← numberDef, List.map_cons, Section.numbered,
      List.map_append, seen heading rfl, seen (heading.shown number) (by rw [shown]), same]
    rfl

/-- Whether an item is a table with a header or of dotted keys, not one that is written inline. -/
def Item.isTable : Item → Bool
  | .table _ _ => true
  | _ => false

namespace Members

/-- What holds of all items and of a new one holds after it is set. -/
theorem forall_set {P : String → Item → Prop} {members : Members}
    (each : ∀ member ∈ members, P member.1.name member.2) {key : Key} {item : Item}
    (own : P key.name item) : ∀ member ∈ members.set key item, P member.1.name member.2 := by
  rcases members.set_cases key with ⟨-, sets⟩ | ⟨before, written, old, after, rfl, named, -, sets⟩
  · rw [sets, List.forall_mem_append, List.forall_mem_singleton]
    exact ⟨each, own⟩
  · rw [List.forall_mem_append, List.forall_mem_cons] at each
    rw [sets, List.forall_mem_append, List.forall_mem_cons]
    exact ⟨each.1, by rw [named]; exact own, each.2.2⟩

/-- The table of a name that is to be given a setting, or an empty one where there is none. -/
def tableOf (members : Members) (name : String) : Heading × Members :=
  (members.table? name).getD ({}, [])

theorem setIn_eq (table key : String) (item : Item) (members : Members) :
    members.setIn table key item =
      members.set (.plain table)
        (.table (members.tableOf table).1 ((members.tableOf table).2.set (.plain key) item)) := rfl

theorem tableOf_cases (members : Members) (name : String) :
    members.tableOf name = ({}, []) ∨
      members.get? name = some (.table (members.tableOf name).1 (members.tableOf name).2) := by
  rw [tableOf, table?]
  cases members.get? name with
  | none => exact Or.inl rfl
  | some item =>
    cases item with
    | table heading below => exact Or.inr rfl
    | _ => exact Or.inl rfl

end Members

/-! ### Giving a setting a value -/

section Editing

variable {table key : String} {item : Item} {members : Members}

/-- The members of a document with a setting that has a value, where the header of its table is
seen with this number. -/
def Members.setShown (number : Nat) (table key : String) (item : Item) (members : Members) : Members :=
  members.set (.plain table) (.table ((members.tableOf table).1.shown number)
    ((members.tableOf table).2.set (.plain key) item))

theorem sound_tableOf {Value : Item → Prop} (sound : members.Sound Value) (table : String) :
    (members.tableOf table).2.Sound Value := by
  rcases members.tableOf_cases table with none | found
  · rw [none]
    exact .nil
  · exact (sound.get? found).of_table.2

/-- A table stays sound when a key is set in it. -/
theorem sound_set {Value : Item → Prop} (sound : members.Sound Value) {name : String}
    (legible : (Key.plain name).Legible) (own : item.Sound Value) :
    (members.set (.plain name) item).Sound Value := by
  cases found : members.get? name with
  | none =>
    rw [Members.set_of_get?_none found]
    exact sound.append found legible own
  | some old => exact sound.set found own

/-- A table has a line when a value is set in it. -/
theorem hasLine_setValue (value : item.isValue = true) (members : Members) (key : String) :
    (members.set (.plain key) item).HasLine := by
  obtain ⟨written, mem⟩ := members.mem_set_self (.plain key) item
  exact ⟨_, mem, Item.isLine_of_isValue value⟩

/-- The text of a document with a setting that was given a value is that of one where the header of
its table is seen. -/
theorem text_setIn {Value : Item → Prop} (sound : members.Sound Value)
    (legible : (Key.plain key).Legible) (value : item.isValue = true) (good : Value item)
    (table : String) (trailing : List Char) :
    ∃ number, Document.text ⟨members.setIn table key item, trailing⟩ =
      Document.text ⟨members.setShown number table key item, trailing⟩ := by
  have soundBelow := sound_set (sound_tableOf sound table) legible (.value value good)
  have lines := linesBelow_ne_nil [] soundBelow (hasLine_setValue value _ key)
  rcases members.set_cases (.plain table) with ⟨-, sets⟩ | ⟨before, written, old, after, -, -, -, sets⟩
  · obtain ⟨number, same⟩ := text_shown members [] (.plain table) (members.tableOf table).1 lines trailing
    exact ⟨number, by rw [Members.setIn_eq, Members.setShown, sets, sets, same]⟩
  · obtain ⟨number, same⟩ := text_shown before after written (members.tableOf table).1 lines trailing
    exact ⟨number, by rw [Members.setIn_eq, Members.setShown, sets, sets, same]⟩

/-- The table with the setting is sound where its header is seen. -/
theorem sound_shownTable {Value : Item → Prop} (sound : members.Sound Value)
    (legible : (Key.plain key).Legible) (value : item.isValue = true) (good : Value item)
    (number : Nat) (table : String) :
    (Item.table ((members.tableOf table).1.shown number)
      ((members.tableOf table).2.set (.plain key) item)).Sound Value := by
  have soundBelow := sound_set (sound_tableOf sound table) legible (.value value good)
  have line := hasLine_setValue value (members.tableOf table).2 key
  refine .table ?_ soundBelow.proper soundBelow.items
  rcases members.tableOf_cases table with none | found
  · rw [none]
    exact ⟨rfl, .nil, nofun, nofun, nofun, fun _ => rfl⟩
  · have proper := (sound.get? found).of_table.1
    cases dotted : (members.tableOf table).1.dotted with
    | true =>
      rw [Heading.shown_of_dotted dotted]
      exact proper.adds line.ne_nil (iff_of_true line (proper.hasLine dotted))
    | false =>
      rw [Heading.shown, if_neg (by simp [dotted])]
      exact ⟨proper.before, proper.after, by simp [dotted], nofun, nofun, fun _ => rfl⟩

theorem sound_setShown {Value : Item → Prop} (sound : members.Sound Value)
    (tableLegible : (Key.plain table).Legible) (keyLegible : (Key.plain key).Legible)
    (value : item.isValue = true) (good : Value item) (number : Nat) :
    (members.setShown number table key item).Sound Value :=
  sound_set sound tableLegible (sound_shownTable sound keyLegible value good number table)

theorem dated_setShown {last : Nat} (dated : members.Dated 0 last) (value : item.isValue = true)
    (number : Nat) (table key : String) :
    (members.setShown number table key item).Dated 0 (max last number) := by
  have wide := dated.mono (Nat.le_max_left last number)
  have own : (Item.table ((members.tableOf table).1.shown number)
      ((members.tableOf table).2.set (.plain key) item)).Dated 0 (max last number) := by
    have old : (∀ n ∈ (members.tableOf table).1.position, n ≤ max last number) ∧
        (members.tableOf table).2.Dated 0 (max last number) := by
      rcases members.tableOf_cases table with none | found
      · rw [none]
        exact ⟨nofun, .nil _ _⟩
      · cases wide.get? found with
        | value no => cases no
        | table position below => exact ⟨fun n mem => (position n mem).2, below⟩
    refine .table (fun n mem => ⟨Nat.zero_le n, ?_⟩) ?_
    · rw [Heading.shown] at mem
      split at mem
      · exact old.1 n mem
      · cases position : (members.tableOf table).1.position with
        | none =>
          rw [position] at mem
          cases mem
          exact Nat.le_max_right last number
        | some m =>
          rw [position] at mem
          cases mem
          exact old.1 _ position
    · exact Members.forall_set (P := fun _ item => item.Dated 0 (max last number)) old.2 (.value value)
  exact Members.forall_set (P := fun _ item => item.Dated 0 (max last number)) wide own

/-- What a document says after a setting is given a value. -/
theorem memberShapes_setShown {Value : Item → Prop} (sound : members.Sound Value) (number : Nat)
    (table key : String) (item : Item) :
    memberShapes (members.setShown number table key item) =
      Function.update (memberShapes members) table
        (some (.table (members.tableOf table).1.dotted (members.tableOf table).1.dotted
          (Function.update (memberShapes (members.tableOf table).2) key (some item.shape)))) := by
  have shown : ((members.tableOf table).1.shown number).implicit = (members.tableOf table).1.dotted ∧
      ((members.tableOf table).1.shown number).dotted = (members.tableOf table).1.dotted := by
    cases dotted : (members.tableOf table).1.dotted with
    | true =>
      rw [Heading.shown_of_dotted dotted]
      refine ⟨?_, dotted⟩
      rcases members.tableOf_cases table with none | found
      · rw [none] at dotted
        cases dotted
      · exact (sound.get? found).of_table.1.implicit dotted
    | false =>
      rw [Heading.shown, if_neg (by simp [dotted])]
      exact ⟨rfl, dotted⟩
  rw [Members.setShown, memberShapes_set, Item.shape, memberShapes_set, shown.1, shown.2]
  rfl

/-- A document in which a setting was given a value is read again as a document that says the
same. -/
theorem ofText?_setIn {document : Document} (sound : document.Sound)
    (tableLegible : (Key.plain table).Legible) (keyLegible : (Key.plain key).Legible)
    (value : item.isValue = true) (good : item.OnLine) :
    ∃ again number, Document.ofText? (document.setIn table key item).text = some again ∧
      (document.top.setShown number table key item).Sound Item.OnLine ∧
      memberShapes again.top = memberShapes (document.top.setShown number table key item) := by
  obtain ⟨number, text⟩ := text_setIn sound.top keyLegible value good table document.trailing
  obtain ⟨last, dated⟩ := sound.dated
  have shown : Document.Sound ⟨document.top.setShown number table key item, document.trailing⟩ :=
    ⟨sound_setShown sound.top tableLegible keyLegible value good number,
      ⟨_, dated_setShown dated value number table key⟩, sound.trailing⟩
  obtain ⟨again, read, -, shapes⟩ := shown.ofText?_text
  exact ⟨again, number, by rw [Document.setIn, text, read], shown.top, shapes⟩

end Editing

end StyleMonitor.Toml
