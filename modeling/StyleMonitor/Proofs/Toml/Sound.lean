import Mathlib.Data.List.Nodup
import StyleMonitor.Proofs.Toml.Keys
import StyleMonitor.Proofs.Toml.Shape

/-!
# Sound trees

What holds of every tree that was read: names are distinct, what is written around keys and headers
can be read again, no array of tables is empty, and a table without a header of its own has what
it stems from: a line below it, or only tables with headers. Adding keys and headers keeps this.
-/

namespace StyleMonitor.Toml

namespace Item

/-- Whether an item is a value, which stands after an equals sign. -/
def isValue : Item → Bool
  | table _ _ => false
  | tables _ => false
  | _ => true

/-- Whether an item is written on lines below the header of the table that it belongs to. -/
def isLine : Item → Bool
  | table heading _ => heading.dotted
  | tables _ => false
  | _ => true

end Item

theorem Item.isLine_of_isValue {item : Item} (value : item.isValue = true) :
    item.isLine = true := by
  cases item <;> first | rfl | cases value

namespace Members

/-- Whether some of a table is written on lines below its header. -/
def HasLine (members : Members) : Prop :=
  ∃ member ∈ members, member.2.isLine = true

/-- What holds of the keys of a table. -/
structure Proper (members : Members) : Prop where
  distinct : (members.map (·.1.name)).Nodup
  legible : ∀ member ∈ members, member.1.Legible

end Members

/-- What holds of the heading of a table with such members. -/
structure Heading.Proper (heading : Heading) (members : Members) : Prop where
  before : isTrivia false (heading.decor.before.getD []) = true
  after : LineEnd (heading.decor.after.getD [])
  implicit : heading.dotted = true → heading.implicit = true
  /-- A table without a header stems from dotted keys if there is a line below it; headers only
  mention it otherwise. -/
  dotted : heading.implicit = true → (heading.dotted = true ↔ members.HasLine)
  mentioned : heading.implicit = true → members ≠ []
  position : heading.implicit = false → heading.position.isSome = true

/-- What holds of an item that was read, where `Value` holds of the values in it. -/
inductive Item.Sound (Value : Item → Prop) : Item → Prop
  | value {item : Item} : item.isValue = true → Value item → Sound Value item
  | table {heading : Heading} {members : Members} : heading.Proper members → members.Proper →
      (∀ member ∈ members, Sound Value member.2) → Sound Value (.table heading members)
  | tables {elements : List (Heading × Members)} : elements ≠ [] →
      (∀ element ∈ elements, element.1.Proper element.2 ∧ element.1.implicit = false) →
      (∀ element ∈ elements, element.2.Proper) →
      (∀ element ∈ elements, ∀ member ∈ element.2, Sound Value member.2) →
      Sound Value (.tables elements)

/-- What holds of the members of a table that was read. -/
structure Members.Sound (Value : Item → Prop) (members : Members) : Prop where
  proper : members.Proper
  items : ∀ member ∈ members, member.2.Sound Value

/-- Whether no table in an item has two keys of one name. -/
inductive Item.Distinct : Item → Prop
  | scalar (decor : Decor) (spelling : List Char) (value : Scalar) :
      Distinct (.scalar decor spelling value)
  | array {decor : Decor} {items : List Item} {ending : List Char} :
      (∀ item ∈ items, Distinct item) → Distinct (.array decor items ending)
  | inline {decor : Decor} {members : Members} {ending : List Char} :
      (members.map (·.1.name)).Nodup → (∀ member ∈ members, Distinct member.2) →
      Distinct (.inline decor members ending)
  | table {heading : Heading} {members : Members} : (members.map (·.1.name)).Nodup →
      (∀ member ∈ members, Distinct member.2) → Distinct (.table heading members)
  | tables {elements : List (Heading × Members)} :
      (∀ element ∈ elements, (element.2.map (·.1.name)).Nodup) →
      (∀ element ∈ elements, ∀ member ∈ element.2, Distinct member.2) → Distinct (.tables elements)

theorem Item.Distinct.decorated {item : Item} (distinct : item.Distinct) (decor : Decor) :
    (item.decorated decor).Distinct := by
  cases distinct with
  | scalar => exact .scalar ..
  | array each => exact .array each
  | inline names each => exact .inline names each
  | table names each => exact .table names each
  | tables names each => exact .tables names each

variable {Value : Item → Prop}

theorem Item.Sound.distinct {item : Item} (sound : item.Sound Value)
    (each : ∀ item, Value item → item.Distinct) : item.Distinct := by
  induction sound with
  | value _ good => exact each _ good
  | table _ proper _ below => exact .table proper.distinct below
  | tables _ _ propers _ below => exact .tables (fun e mem => (propers e mem).distinct) below

/-! ### Tables -/

namespace Members

theorem mem_of_get? {members : Members} {name : String} {item : Item}
    (found : members.get? name = some item) : ∃ key, (key, item) ∈ members ∧ key.name = name := by
  induction members with
  | nil => cases found
  | cons member rest ih =>
    obtain ⟨key, own⟩ := member
    rw [get?_cons] at found
    split at found
    · next same =>
      cases found
      exact ⟨key, List.mem_cons_self, same⟩
    · obtain ⟨key', member, same⟩ := ih found
      exact ⟨key', List.mem_cons_of_mem _ member, same⟩

theorem get?_eq_none {members : Members} {name : String} (absent : members.get? name = none) :
    name ∉ members.map (·.1.name) := by
  induction members with
  | nil => simp
  | cons member rest ih =>
    obtain ⟨key, own⟩ := member
    rw [get?_cons] at absent
    split at absent
    · cases absent
    · next other => simp [Ne.symm other, ih absent]

theorem get?_of_mem {members : Members} (distinct : (members.map (·.1.name)).Nodup) {key : Key}
    {item : Item} (member : (key, item) ∈ members) : members.get? key.name = some item := by
  induction members with
  | nil => cases member
  | cons first rest ih =>
    obtain ⟨other, own⟩ := first
    rw [List.map_cons, List.nodup_cons] at distinct
    rw [get?_cons]
    rcases List.mem_cons.mp member with same | later
    · cases same
      rw [if_pos rfl]
    · rw [if_neg, ih distinct.2 later]
      intro same
      exact distinct.1 (List.mem_map.mpr ⟨_, later, same.symm⟩)

/-- A key that is there stays in its place. -/
theorem mem_set {members : Members} {key : Key} {old item : Item} {member : Key × Item}
    (found : members.get? key.name = some old) (mem : member ∈ members.set key item) :
    member ∈ members ∨ (member.1, old) ∈ members ∧ member.2 = item := by
  induction members with
  | nil => cases found
  | cons first rest ih =>
    obtain ⟨other, was⟩ := first
    rw [get?_cons] at found
    rw [set] at mem
    split at mem
    · next same =>
      rw [if_pos same] at found
      cases found
      rcases List.mem_cons.mp mem with rfl | later
      · exact Or.inr ⟨List.mem_cons_self, rfl⟩
      · exact Or.inl (List.mem_cons_of_mem _ later)
    · next different =>
      rw [if_neg different] at found
      rcases List.mem_cons.mp mem with rfl | later
      · exact Or.inl List.mem_cons_self
      · rcases ih found later with kept | ⟨kept, changed⟩
        · exact Or.inl (List.mem_cons_of_mem _ kept)
        · exact Or.inr ⟨List.mem_cons_of_mem _ kept, changed⟩

theorem names_set {members : Members} {key : Key} {old : Item}
    (found : members.get? key.name = some old) (item : Item) :
    (members.set key item).map (·.1.name) = members.map (·.1.name) := by
  induction members with
  | nil => cases found
  | cons first rest ih =>
    obtain ⟨other, was⟩ := first
    rw [get?_cons] at found
    rw [set]
    split
    · simp
    · next different =>
      rw [if_neg different] at found
      simp [ih found]

theorem set_of_get?_none {members : Members} {key : Key} (absent : members.get? key.name = none)
    (item : Item) : members.set key item = members ++ [(key, item)] := by
  induction members with
  | nil => rfl
  | cons first rest ih =>
    obtain ⟨other, was⟩ := first
    rw [get?_cons] at absent
    rw [set]
    split at absent
    · cases absent
    · next different => rw [if_neg different, ih absent, List.cons_append]

/-- A key that is there stays in its place, and a new one comes last. -/
theorem set_cases (members : Members) (key : Key) :
    (members.get? key.name = none ∧ ∀ item, members.set key item = members ++ [(key, item)]) ∨
      ∃ before written old after, members = before ++ (written, old) :: after ∧
        written.name = key.name ∧ members.get? key.name = some old ∧
        ∀ item, members.set key item = before ++ (written, item) :: after := by
  induction members with
  | nil => exact Or.inl ⟨rfl, fun _ => rfl⟩
  | cons member rest ih =>
    obtain ⟨own, was⟩ := member
    by_cases same : own.name = key.name
    · refine Or.inr ⟨[], own, was, rest, rfl, same, ?_, fun item => ?_⟩
      · rw [get?_cons, if_pos same]
      · rw [set, if_pos same, List.nil_append]
    · rw [get?_cons, if_neg same]
      rcases ih with ⟨absent, sets⟩ | ⟨before, written, old, after, rfl, named, found, sets⟩
      · exact Or.inl ⟨absent, fun item => by rw [set, if_neg same, sets, List.cons_append]⟩
      · refine Or.inr ⟨(own, was) :: before, written, old, after, rfl, named, found, fun item => ?_⟩
        rw [set, if_neg same, sets, List.cons_append]

theorem hasLine_append {members : Members} {key : Key} {item : Item} :
    HasLine (members ++ [(key, item)]) ↔ members.HasLine ∨ item.isLine = true := by
  simp [HasLine, or_and_right, exists_or]

/-- Where a line makes way for a line, or a header for a header, there are lines as before. -/
theorem hasLine_set {members : Members} {key : Key} {old item : Item}
    (found : members.get? key.name = some old) (same : item.isLine = old.isLine) :
    HasLine (members.set key item) ↔ members.HasLine := by
  rcases members.set_cases key with ⟨absent, -⟩ | ⟨before, written, _, after, rfl, -, found', sets⟩
  · rw [absent] at found
    cases found
  · rw [found] at found'
    cases found'
    simp only [sets, HasLine, List.mem_append, List.mem_cons, or_and_right, exists_or,
      exists_eq_left, same]

theorem mem_set_self (members : Members) (key : Key) (item : Item) :
    ∃ written, (written, item) ∈ members.set key item := by
  induction members with
  | nil => exact ⟨key, by simp [set]⟩
  | cons first rest ih =>
    obtain ⟨old, was⟩ := first
    rw [set]
    split
    · exact ⟨old, List.mem_cons_self⟩
    · obtain ⟨written, mem⟩ := ih
      exact ⟨written, List.mem_cons_of_mem _ mem⟩

namespace Sound

theorem nil : Members.Sound Value [] :=
  ⟨⟨by simp, nofun⟩, nofun⟩

theorem get? {members : Members} (sound : members.Sound Value) {name : String} {item : Item}
    (found : members.get? name = some item) : item.Sound Value := by
  obtain ⟨key, mem, -⟩ := mem_of_get? found
  exact sound.items _ mem

theorem append {members : Members} (sound : members.Sound Value) {key : Key} {item : Item}
    (fresh : members.get? key.name = none) (legible : key.Legible) (own : item.Sound Value) :
    Members.Sound Value (members ++ [(key, item)]) := by
  refine ⟨⟨?_, ?_⟩, ?_⟩
  · rw [List.map_append, List.map_singleton]
    exact sound.proper.distinct.append (List.nodup_singleton _)
      (List.disjoint_singleton.mpr (get?_eq_none fresh))
  · rw [List.forall_mem_append]
    exact ⟨sound.proper.legible, by simpa using legible⟩
  · rw [List.forall_mem_append]
    exact ⟨sound.items, by simpa using own⟩

/-- A key can stand for something else. -/
theorem set {members : Members} (sound : members.Sound Value) {key : Key} {old item : Item}
    (found : members.get? key.name = some old) (own : item.Sound Value) :
    Members.Sound Value (members.set key item) := by
  refine ⟨⟨?_, ?_⟩, ?_⟩
  · rw [names_set found]
    exact sound.proper.distinct
  · intro member mem
    rcases mem_set found mem with kept | ⟨kept, -⟩
    · exact sound.proper.legible _ kept
    · exact sound.proper.legible (member.1, old) kept
  · intro member mem
    rcases mem_set found mem with kept | ⟨kept, changed⟩
    · exact sound.items _ kept
    · rw [changed]
      exact own

theorem erase {members : Members} (sound : members.Sound Value) (name : String) :
    Members.Sound Value (members.erase name) := by
  have kept : ∀ member ∈ members.erase name, member ∈ members :=
    fun member mem => (List.mem_filter.mp mem).1
  refine ⟨⟨?_, ?_⟩, ?_⟩
  · exact sound.proper.distinct.sublist (List.filter_sublist.map _)
  · exact fun member mem => sound.proper.legible _ (kept member mem)
  · exact fun member mem => sound.items _ (kept member mem)

end Sound

end Members

/-- A table of dotted keys has a line. -/
theorem Heading.Proper.hasLine {heading : Heading} {members : Members}
    (proper : heading.Proper members) (dotted : heading.dotted = true) : members.HasLine :=
  (proper.dotted (proper.implicit dotted)).mp dotted

/-- A table that headers only mention has no line. -/
theorem Heading.Proper.noLine {heading : Heading} {members : Members}
    (proper : heading.Proper members) (implicit : heading.implicit = true)
    (plain : heading.dotted = false) : ∀ member ∈ members, member.2.isLine = false := by
  intro member mem
  by_contra line
  have dotted := (proper.dotted implicit).mpr ⟨member, mem, by simpa using line⟩
  rw [plain] at dotted
  cases dotted

/-- A heading stays in order when what is below it is added to. -/
theorem Heading.Proper.adds {heading : Heading} {below changed : Members}
    (proper : heading.Proper below) (some : changed ≠ [])
    (lines : changed.HasLine ↔ below.HasLine) : heading.Proper changed :=
  ⟨proper.before, proper.after, proper.implicit,
    fun implicit => (proper.dotted implicit).trans lines.symm, fun _ => some, proper.position⟩

/-! ### Reading adds to a tree -/

namespace Members

theorem HasLine.ne_nil {members : Members} (line : members.HasLine) : members ≠ [] := by
  obtain ⟨member, mem, -⟩ := line
  exact List.ne_nil_of_mem mem

theorem set_ne_nil (members : Members) (key : Key) (item : Item) :
    members.set key item ≠ [] := by
  obtain ⟨written, mem⟩ := mem_set_self members key item
  exact List.ne_nil_of_mem mem

/-- Defining a key adds a line to a table. -/
theorem Sound.define {leaf : Key} {item : Item} (leafLegible : leaf.Legible)
    (value : item.isValue = true) (good : Value item) {path : List Key}
    (legible : ∀ key ∈ path, key.Legible) {members defined : Members}
    (sound : members.Sound Value) (result : members.define leaf item path = some defined) :
    defined.Sound Value ∧ defined.HasLine := by
  induction path generalizing members defined with
  | nil =>
    rw [Members.define] at result
    cases found : members.get? leaf.name with
    | some old =>
      rw [found] at result
      cases result
    | none =>
      rw [found] at result
      cases result
      exact ⟨sound.append found leafLegible (.value value good),
        hasLine_append.mpr (Or.inr (Item.isLine_of_isValue value))⟩
  | cons key path ih =>
    have ih := @ih fun k mem => legible k (List.mem_cons_of_mem _ mem)
    have keyLegible := legible key List.mem_cons_self
    rw [Members.define] at result
    cases found : members.get? key.name with
    | none =>
      simp only [found, Option.map_eq_some_iff] at result
      obtain ⟨below, readBelow, rfl⟩ := result
      obtain ⟨soundBelow, line⟩ := ih .nil readBelow
      refine ⟨sound.append found keyLegible ?_, hasLine_append.mpr (Or.inr rfl)⟩
      exact .table ⟨rfl, .nil, fun _ => rfl, fun _ => iff_of_true rfl line, fun _ => line.ne_nil,
        by rintro ⟨⟩⟩ soundBelow.proper soundBelow.items
    | some old =>
      cases old with
      | table heading below =>
        simp only [found] at result
        split at result
        · next implicit =>
          simp only [Option.map_eq_some_iff] at result
          obtain ⟨below', readBelow, rfl⟩ := result
          cases sound.get? found with
          | value no => cases no
          | table proper properBelow items =>
            obtain ⟨soundBelow, line⟩ := ih ⟨properBelow, items⟩ readBelow
            have dotted : Heading.Proper { heading with dotted := true } below' :=
              ⟨proper.before, proper.after, fun _ => implicit, fun _ => iff_of_true rfl line,
                fun _ => line.ne_nil, proper.position⟩
            obtain ⟨written, mem⟩ := mem_set_self members key (.table { heading with dotted := true } below')
            exact ⟨sound.set found (.table dotted soundBelow.proper soundBelow.items), _, mem, rfl⟩
        · cases result
      | _ =>
        rw [found] at result
        cases result

/-- What holds of a change that adds headers to a table: it stays sound, is not empty then, and has
lines if it had some. -/
def Adds (Value : Item → Prop) (change : Members → Option Members) : Prop :=
  ∀ ⦃members changed : Members⦄, members.Sound Value → change members = some changed →
    changed.Sound Value ∧ changed ≠ [] ∧ (changed.HasLine ↔ members.HasLine)

/-- Opening a table by its header adds to the table that it is in. -/
theorem adds_openTable {key : Key} (legible : key.Legible) {heading : Heading}
    (before : isTrivia false (heading.decor.before.getD []) = true)
    (after : LineEnd (heading.decor.after.getD [])) (own : heading.implicit = false)
    (plain : heading.dotted = false) (numbered : heading.position.isSome = true)
    {fill : Members → Option Members}
    (fills : ∀ ⦃members filled⦄, members.Sound Value → fill members = some filled →
      filled.Sound Value) :
    Adds Value (openTable key heading fill) := by
  have proper : ∀ members, heading.Proper members := fun members =>
    ⟨before, after, by simp [plain], by simp [own], by simp [own], fun _ => numbered⟩
  have noLine : ∀ filled, (Item.table heading filled).isLine = false := fun _ => plain
  intro members opened sound result
  rw [openTable] at result
  cases found : members.get? key.name with
  | none =>
    simp only [found, Option.map_eq_some_iff] at result
    obtain ⟨filled, readBelow, rfl⟩ := result
    have soundFilled := fills .nil readBelow
    exact ⟨sound.append found legible
      (.table (proper filled) soundFilled.proper soundFilled.items), by simp,
      by simp [hasLine_append, noLine]⟩
  | some old =>
    cases old with
    | table old below =>
      simp only [found] at result
      split at result
      · next enters =>
        simp only [Option.map_eq_some_iff] at result
        obtain ⟨filled, readBelow, rfl⟩ := result
        cases sound.get? found with
        | value no => cases no
        | table _ properBelow items =>
          have soundFilled := fills ⟨properBelow, items⟩ readBelow
          refine ⟨(sound.erase key.name).append (by simp [get?_erase]) legible
            (.table (proper filled) soundFilled.proper soundFilled.items), by simp, ?_⟩
          rw [hasLine_append, noLine]
          constructor
          · rintro (⟨member, mem, isLine⟩ | no)
            · exact ⟨member, (List.mem_filter.mp mem).1, isLine⟩
            · cases no
          · -- The table that moves is no line.
            rintro ⟨member, mem, isLine⟩
            refine Or.inl ⟨member, List.mem_filter.mpr ⟨mem, decide_eq_true fun same => ?_⟩, isLine⟩
            have other := get?_of_mem sound.proper.distinct
              (show (member.1, member.2) ∈ members from mem)
            rw [same, found] at other
            rw [← Option.some.inj other] at isLine
            exact enters.2 isLine
      · cases result
    | _ =>
      rw [found] at result
      cases result

/-- Adding a table to an array of tables adds to the table that it is in. -/
theorem adds_addTable {key : Key} (legible : key.Legible) {heading : Heading}
    (before : isTrivia false (heading.decor.before.getD []) = true)
    (after : LineEnd (heading.decor.after.getD [])) (own : heading.implicit = false)
    (plain : heading.dotted = false) (numbered : heading.position.isSome = true)
    {fill : Members → Option Members}
    (fills : ∀ ⦃members filled⦄, members.Sound Value → fill members = some filled →
      filled.Sound Value) :
    Adds Value (addTable key heading fill) := by
  have proper : ∀ members, heading.Proper members := fun members =>
    ⟨before, after, by simp [plain], by simp [own], by simp [own], fun _ => numbered⟩
  intro members added sound result
  rw [addTable] at result
  cases found : members.get? key.name with
  | none =>
    simp only [found, Option.map_eq_some_iff] at result
    obtain ⟨filled, readBelow, rfl⟩ := result
    have soundFilled := fills .nil readBelow
    refine ⟨sound.append found legible (.tables (by simp) ?_ ?_ ?_), by simp,
      by simp [hasLine_append, Item.isLine]⟩
    · simpa using ⟨proper filled, own⟩
    · simpa using soundFilled.proper
    · rw [List.forall_mem_singleton]
      exact soundFilled.items
  | some old =>
    cases old with
    | tables elements =>
      simp only [found, Option.map_eq_some_iff] at result
      obtain ⟨filled, readBelow, rfl⟩ := result
      have soundFilled := fills .nil readBelow
      cases sound.get? found with
      | value no => cases no
      | tables _ headings propers items =>
        refine ⟨sound.set found (.tables (by simp) ?_ ?_ ?_), set_ne_nil _ _ _, hasLine_set found rfl⟩
        · rw [List.forall_mem_append, List.forall_mem_singleton]
          exact ⟨headings, proper filled, own⟩
        · rw [List.forall_mem_append, List.forall_mem_singleton]
          exact ⟨propers, soundFilled.proper⟩
        · rw [List.forall_mem_append, List.forall_mem_singleton]
          exact ⟨items, soundFilled.items⟩
    | _ =>
      rw [found] at result
      cases result

theorem not_hasLine_nil : ¬ HasLine [] := by
  rintro ⟨member, mem, -⟩
  cases mem

/-- What adds to the table at the end of a row adds to the one at its start. -/
theorem adds_within {change : Members → Option Members} (adds : Adds Value change)
    {path : List Key} (legible : ∀ key ∈ path, key.Legible) :
    Adds Value (within change path) := by
  induction path with
  | nil => exact adds
  | cons key path ih =>
    have addsBelow := ih fun k mem => legible k (List.mem_cons_of_mem _ mem)
    have keyLegible := legible key List.mem_cons_self
    intro members changed sound result
    rw [within] at result
    cases found : members.get? key.name with
    | none =>
      simp only [found, Option.map_eq_some_iff] at result
      obtain ⟨below, readBelow, rfl⟩ := result
      obtain ⟨soundBelow, some, lines⟩ := addsBelow .nil readBelow
      have noLine := not_hasLine_nil ∘ lines.mp
      refine ⟨sound.append found keyLegible ?_, by simp,
        by simp [hasLine_append, Item.isLine, Heading.mentioned]⟩
      exact .table ⟨rfl, .nil, by rintro ⟨⟩, fun _ => iff_of_false (by rintro ⟨⟩) noLine,
        fun _ => some, by rintro ⟨⟩⟩ soundBelow.proper soundBelow.items
    | some old =>
      cases old with
      | table heading below =>
        simp only [found, Option.map_eq_some_iff] at result
        obtain ⟨below', readBelow, rfl⟩ := result
        cases sound.get? found with
        | value no => cases no
        | table proper properBelow items =>
          obtain ⟨soundBelow, some, lines⟩ := addsBelow ⟨properBelow, items⟩ readBelow
          exact ⟨sound.set found (.table (proper.adds some lines) soundBelow.proper
            soundBelow.items), set_ne_nil _ _ _, hasLine_set found rfl⟩
      | tables elements =>
        simp only [found] at result
        split at result
        · cases result
        · next heading below last =>
          simp only [Option.map_eq_some_iff] at result
          obtain ⟨below', readBelow, rfl⟩ := result
          have mem := List.mem_of_getLast? last
          cases sound.get? found with
          | value no => cases no
          | tables _ headings propers items =>
            obtain ⟨soundBelow, some, lines⟩ := addsBelow ⟨propers _ mem, items _ mem⟩ readBelow
            refine ⟨sound.set found (.tables (by simp) ?_ ?_ ?_), set_ne_nil _ _ _,
              hasLine_set found rfl⟩
            · rw [List.forall_mem_append, List.forall_mem_singleton]
              exact ⟨fun e mem => headings e (List.dropLast_subset _ mem),
                (headings _ mem).1.adds some lines, (headings _ mem).2⟩
            · rw [List.forall_mem_append, List.forall_mem_singleton]
              exact ⟨fun e mem => propers e (List.dropLast_subset _ mem), soundBelow.proper⟩
            · rw [List.forall_mem_append, List.forall_mem_singleton]
              exact ⟨fun e mem => items e (List.dropLast_subset _ mem), soundBelow.items⟩
      | _ =>
        rw [found] at result
        cases result

end Members

end StyleMonitor.Toml
