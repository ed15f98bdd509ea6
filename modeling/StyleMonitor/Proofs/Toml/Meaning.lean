import StyleMonitor.Proofs.Toml.Sound
import StyleMonitor.Settings.Toml
import StyleMonitor.Toml.Edit

/-!
# What a shape determines

Where no two keys have one name, the shape of a tree determines whether its numbers fit, and what
settings are read from it: the order in which they are written does not matter.
-/

namespace StyleMonitor.Toml

/-! ### Scalars of a shape -/

/-- Whether all scalars in a shape are of a kind. -/
inductive Shape.All (Good : Scalar → Prop) : Shape → Prop
  | scalar {value : Scalar} : Good value → All Good (.scalar value)
  | array {items : List Shape} : (∀ shape ∈ items, All Good shape) → All Good (.array items)
  | inline {members : Fields} :
      (∀ name shape, members name = some shape → All Good shape) → All Good (.inline members)
  | table {implicit dotted : Bool} {members : Fields} :
      (∀ name shape, members name = some shape → All Good shape) →
      All Good (.table implicit dotted members)
  | tables {elements : List Fields} :
      (∀ fields ∈ elements, ∀ name shape, fields name = some shape → All Good shape) →
      All Good (.tables elements)

/-- The shapes in the fields of a table are those of its members. -/
theorem forall_memberShapes {members : Members} (distinct : (members.map (·.1.name)).Nodup)
    {Good : Shape → Prop} :
    (∀ name shape, memberShapes members name = some shape → Good shape) ↔
      ∀ member ∈ members, Good member.2.shape := by
  constructor
  · intro each member mem
    refine each member.1.name _ ?_
    rw [memberShapes_apply, Members.get?_of_mem distinct (show (member.1, member.2) ∈ members from mem),
      Option.map_some]
  · intro each name shape found
    rw [memberShapes_apply, Option.map_eq_some_iff] at found
    obtain ⟨item, found, rfl⟩ := found
    obtain ⟨key, mem, -⟩ := Members.mem_of_get? found
    exact each _ mem

/-- What holds of an item if it holds of its parts, and of a scalar if it is of a kind. -/
structure Partwise (Check : Item → Prop) (Good : Scalar → Prop) : Prop where
  scalar : ∀ decor spelling value, Check (.scalar decor spelling value) ↔ Good value
  array : ∀ decor items ending, Check (.array decor items ending) ↔ ∀ item ∈ items, Check item
  inline : ∀ decor members ending,
    Check (.inline decor members ending) ↔ ∀ member ∈ members, Check member.2
  table : ∀ heading members, Check (.table heading members) ↔ ∀ member ∈ members, Check member.2
  tables : ∀ elements, Check (.tables elements) ↔
    ∀ element ∈ elements, ∀ member ∈ element.2, Check member.2

/-- The shape of an item tells whether it holds. -/
theorem Partwise.iff_all {Check : Item → Prop} {Good : Scalar → Prop}
    (partwise : Partwise Check Good) {item : Item} (distinct : item.Distinct) :
    Check item ↔ item.shape.All Good := by
  induction distinct with
  | scalar decor spelling value =>
    rw [partwise.scalar]
    refine ⟨.scalar, fun all => ?_⟩
    cases all with
    | scalar good => exact good
  | array _ ih =>
    rw [partwise.array, Item.shape, itemShapes_eq]
    constructor
    · intro each
      refine .array fun shape mem => ?_
      obtain ⟨item, isItem, rfl⟩ := List.mem_map.mp mem
      exact (ih item isItem).mp (each item isItem)
    · intro all item mem
      cases all with
      | array each => exact (ih item mem).mpr (each _ (List.mem_map_of_mem mem))
  | inline names _ ih =>
    rw [partwise.inline, Item.shape]
    constructor
    · exact fun each => .inline ((forall_memberShapes names).mpr fun member mem =>
        (ih member mem).mp (each member mem))
    · intro all member mem
      cases all with
      | inline each => exact (ih member mem).mpr ((forall_memberShapes names).mp each member mem)
  | table names _ ih =>
    rw [partwise.table, Item.shape]
    constructor
    · exact fun each => .table ((forall_memberShapes names).mpr fun member mem =>
        (ih member mem).mp (each member mem))
    · intro all member mem
      cases all with
      | table each => exact (ih member mem).mpr ((forall_memberShapes names).mp each member mem)
  | tables names _ ih =>
    rw [partwise.tables, Item.shape, elementShapes_eq]
    constructor
    · intro each
      refine .tables fun fields mem => ?_
      obtain ⟨element, isElement, rfl⟩ := List.mem_map.mp mem
      exact (forall_memberShapes (names element isElement)).mpr fun member mem' =>
        (ih element isElement member mem').mp (each element isElement member mem')
    · intro all element mem member mem'
      cases all with
      | tables each =>
        exact (ih element mem member mem').mpr
          ((forall_memberShapes (names element mem)).mp (each _ (List.mem_map_of_mem mem)) member mem')

/-! ### Numbers that fit -/

theorem itemsFit_iff {items : List Item} :
    itemsFit items = true ↔ ∀ item ∈ items, item.fits = true := by
  induction items with
  | nil => simp [itemsFit]
  | cons item rest ih => rw [itemsFit, Bool.and_eq_true, ih, List.forall_mem_cons]

theorem membersFit_iff {members : Members} :
    membersFit members = true ↔ ∀ member ∈ members, member.2.fits = true := by
  induction members with
  | nil => simp [membersFit]
  | cons member rest ih => rw [membersFit, Bool.and_eq_true, ih, List.forall_mem_cons]

theorem elementsFit_iff {elements : List (Heading × Members)} :
    elementsFit elements = true ↔
      ∀ element ∈ elements, ∀ member ∈ element.2, member.2.fits = true := by
  induction elements with
  | nil => simp [elementsFit]
  | cons element rest ih =>
    rw [elementsFit, Bool.and_eq_true, ih, List.forall_mem_cons, membersFit_iff]

theorem partwise_fits : Partwise (fun item => item.fits = true)
    fun value => (Item.scalar {} [] value).fits = true where
  scalar _ _ value := by cases value <;> rfl
  array _ _ _ := by rw [Item.fits, itemsFit_iff]
  inline _ _ _ := by rw [Item.fits, membersFit_iff]
  table _ _ := by rw [Item.fits, membersFit_iff]
  tables _ := by rw [Item.fits, elementsFit_iff]

/-- Two trees of one shape have numbers that fit or not alike. -/
theorem fits_congr {item other : Item} (distinct : item.Distinct) (distinct' : other.Distinct)
    (same : item.shape = other.shape) : item.fits = other.fits := by
  rw [Bool.eq_iff_iff, partwise_fits.iff_all distinct, partwise_fits.iff_all distinct', same]

/-! ### Values that are let pass -/

theorem areSkippable_iff {items : List Item} :
    Value.areSkippable (itemValues items) = true ↔ ∀ item ∈ items, item.value.isSkippable = true := by
  induction items with
  | nil => simp [itemValues, Value.areSkippable]
  | cons item rest ih =>
    rw [itemValues, Value.areSkippable, Bool.and_eq_true, ih, List.forall_mem_cons]

theorem membersAreSkippable_iff {members : Members} :
    Value.membersAreSkippable (memberValues members) = true ↔
      ∀ member ∈ members, member.2.value.isSkippable = true := by
  induction members with
  | nil => simp [memberValues, Value.membersAreSkippable]
  | cons member rest ih =>
    rw [memberValues, Value.membersAreSkippable, Bool.and_eq_true, ih, List.forall_mem_cons]

theorem elementsAreSkippable_iff {elements : List (Heading × Members)} :
    Value.areSkippable (elementValues elements) = true ↔
      ∀ element ∈ elements, ∀ member ∈ element.2, member.2.value.isSkippable = true := by
  induction elements with
  | nil => simp [elementValues, Value.areSkippable]
  | cons element rest ih =>
    rw [elementValues, Value.areSkippable, Bool.and_eq_true, ih, List.forall_mem_cons,
      Value.isSkippable, membersAreSkippable_iff]

theorem partwise_isSkippable : Partwise (fun item => item.value.isSkippable = true)
    fun value => (Value.scalar value).isSkippable = true where
  scalar _ _ _ := Iff.rfl
  array _ _ _ := by rw [Item.value, Value.isSkippable, areSkippable_iff]
  inline _ _ _ := by rw [Item.value, Value.isSkippable, membersAreSkippable_iff]
  table _ _ := by rw [Item.value, Value.isSkippable, membersAreSkippable_iff]
  tables _ := by rw [Item.value, Value.isSkippable, elementsAreSkippable_iff]

/-! ### Readers of values -/

/-- Whether what is read from a value is the same for all trees of one shape. -/
def Determined {α : Type} (read : Value → α) : Prop :=
  ∀ ⦃item other : Item⦄, item.Distinct → other.Distinct → item.shape = other.shape →
    read item.value = read other.value

theorem determined_isSkippable : Determined Value.isSkippable := by
  intro item other distinct distinct' same
  rw [Bool.eq_iff_iff, partwise_isSkippable.iff_all distinct,
    partwise_isSkippable.iff_all distinct', same]

/-- Whether what is read from the items of an array is the same for all items of such shapes. -/
def DeterminedItems {α : Type} (read : List Value → α) : Prop :=
  ∀ ⦃items others : List Item⦄, (∀ item ∈ items, item.Distinct) → (∀ item ∈ others, item.Distinct) →
    items.map Item.shape = others.map Item.shape →
    read (items.map Item.value) = read (others.map Item.value)

/-- Whether no two keys of a table, or of one below it, have one name. -/
def Members.Distinct (members : Members) : Prop :=
  (members.map (·.1.name)).Nodup ∧ ∀ member ∈ members, member.2.Distinct

/-- Whether what is read from the members of a table is the same for all tables of one shape. -/
def DeterminedMembers {α : Type} (read : List (String × Value) → α) : Prop :=
  ∀ ⦃members others : Members⦄, members.Distinct → others.Distinct →
    memberShapes members = memberShapes others →
    read (memberValues members) = read (memberValues others)

theorem itemValues_eq (items : List Item) : itemValues items = items.map Item.value := by
  induction items with
  | nil => rfl
  | cons item rest ih => rw [itemValues, ih, List.map_cons]

theorem elementValues_eq (elements : List (Heading × Members)) :
    elementValues elements =
      (elements.map fun element => Item.table {} element.2).map Item.value := by
  induction elements with
  | nil => rfl
  | cons element rest ih => rw [elementValues, ih, List.map_cons, List.map_cons]; rfl

/-- A reader of values from what it does with arrays and with tables. -/
theorem Determined.of_parts {α : Type} {read : Value → α}
    (array : DeterminedItems fun items => read (.array items))
    (table : DeterminedMembers fun members => read (.table members)) : Determined read := by
  intro item other distinct distinct' same
  cases distinct with
  | scalar =>
    cases distinct' with
    | scalar =>
      cases same
      rfl
    | _ => cases same
  | array each =>
    cases distinct' with
    | array each' =>
      simp only [Item.shape, Shape.array.injEq, itemShapes_eq] at same
      simp only [Item.value, itemValues_eq]
      exact array each each' same
    | _ => cases same
  | tables names each =>
    cases distinct' with
    | tables names' each' =>
      simp only [Item.shape, Shape.tables.injEq, elementShapes_eq] at same
      simp only [Item.value, elementValues_eq]
      refine array ?_ ?_ ?_
      · exact List.forall_mem_map.mpr fun element mem => .table (names element mem) (each element mem)
      · exact List.forall_mem_map.mpr fun element mem => .table (names' element mem) (each' element mem)
      · rw [List.map_map, List.map_map]
        have := congrArg (List.map (Shape.table false false)) same
        rw [List.map_map, List.map_map] at this
        exact this
    | _ => cases same
  | inline names each =>
    cases distinct' with
    | inline names' each' =>
      simp only [Item.shape, Shape.inline.injEq] at same
      exact table ⟨names, each⟩ ⟨names', each'⟩ same
    | _ => cases same
  | table names each =>
    cases distinct' with
    | table names' each' =>
      simp only [Item.shape, Shape.table.injEq] at same
      exact table ⟨names, each⟩ ⟨names', each'⟩ same.2.2
    | _ => cases same

theorem determined_asBool : Determined Value.asBool :=
  .of_parts (fun _ _ _ _ _ => rfl) fun _ _ _ _ _ => rfl

theorem determined_asNat : Determined Value.asNat :=
  .of_parts (fun _ _ _ _ _ => rfl) fun _ _ _ _ _ => rfl

theorem determined_asString : Determined Value.asString :=
  .of_parts (fun _ _ _ _ _ => rfl) fun _ _ _ _ _ => rfl

theorem determined_asStrings : Determined Value.asStrings := by
  refine .of_parts (fun items others distinct distinct' same => ?_) fun _ _ _ _ _ => rfl
  show (items.map Item.value).mapM Value.asString = (others.map Item.value).mapM Value.asString
  induction items generalizing others with
  | nil =>
    cases others with
    | nil => rfl
    | cons => cases same
  | cons item items ih =>
    cases others with
    | nil => cases same
    | cons other others =>
      rw [List.map_cons, List.map_cons, List.cons.injEq] at same
      rw [List.forall_mem_cons] at distinct distinct'
      rw [List.map_cons, List.map_cons, List.mapM_cons, List.mapM_cons,
        determined_asString distinct.1 distinct'.1 same.1, ih others distinct.2 distinct'.2 same.2]

end StyleMonitor.Toml
