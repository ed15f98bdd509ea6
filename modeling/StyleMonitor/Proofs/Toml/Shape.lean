import Mathlib.Data.List.Basic
import Mathlib.Logic.Function.Basic
import StyleMonitor.Toml.Document

/-!
# Shapes

The shape of a tree is what it says, without its layout and without the order of its keys. Adding
keys and headers to a tree does to its shape what the same steps do on shapes, where each of them
changes what its first key stands for and nothing else.
-/

namespace StyleMonitor.Toml

/-- What a tree says, without its layout and the order of its keys. -/
inductive Shape where
  | scalar (value : Scalar)
  | array (items : List Shape)
  | inline (members : String → Option Shape)
  | table (implicit dotted : Bool) (members : String → Option Shape)
  | tables (elements : List (String → Option Shape))

/-- The shapes that the keys of a table stand for, by their names. -/
abbrev Fields := String → Option Shape

mutual

/-- The shape of an item. -/
def Item.shape : Item → Shape
  | .scalar _ _ value => .scalar value
  | .array _ items _ => .array (itemShapes items)
  | .inline _ members _ => .inline (memberShapes members)
  | .table heading members => .table heading.implicit heading.dotted (memberShapes members)
  | .tables elements => .tables (elementShapes elements)

/-- The shapes of items. -/
def itemShapes : List Item → List Shape
  | [] => []
  | item :: rest => item.shape :: itemShapes rest

/-- The shapes of the members of a table. Where two have one name, the first counts. -/
def memberShapes : List (Key × Item) → Fields
  | [] => fun _ => none
  | (key, item) :: rest =>
    fun name => if key.name = name then some item.shape else memberShapes rest name

/-- The shapes of tables. -/
def elementShapes : List (Heading × List (Key × Item)) → List Fields
  | [] => []
  | (_, members) :: rest => memberShapes members :: elementShapes rest

end

theorem itemShapes_eq (items : List Item) : itemShapes items = items.map Item.shape := by
  induction items with
  | nil => rfl
  | cons item rest ih => rw [itemShapes, ih, List.map_cons]

theorem elementShapes_eq (elements : List (Heading × Members)) :
    elementShapes elements = elements.map fun element => memberShapes element.2 := by
  induction elements with
  | nil => rfl
  | cons element rest ih => rw [elementShapes, ih, List.map_cons]

@[simp] theorem shape_decorated (decor : Decor) (item : Item) :
    (item.decorated decor).shape = item.shape := by
  cases item <;> rfl

/-! ### Members by their names -/

namespace Members

theorem get?_cons (key : Key) (item : Item) (rest : Members) (name : String) :
    get? ((key, item) :: rest) name = if key.name = name then some item else rest.get? name := by
  by_cases same : key.name = name
  · simp [get?, same]
  · simp [get?, same]

@[simp] theorem get?_nil (name : String) : get? [] name = none := rfl

theorem get?_append (first second : Members) (name : String) :
    (first ++ second).get? name = (first.get? name).or (second.get? name) := by
  induction first with
  | nil => simp
  | cons member first ih =>
    rw [List.cons_append, get?_cons, get?_cons, ih]
    split <;> simp

theorem get?_set (key : Key) (item : Item) (members : Members) (name : String) :
    (members.set key item).get? name = if key.name = name then some item else members.get? name := by
  induction members with
  | nil => rw [set, get?_cons]
  | cons member rest ih =>
    obtain ⟨old, was⟩ := member
    rw [set]
    split
    · next same =>
      rw [get?_cons, get?_cons, same]
      split <;> rfl
    · next other =>
      rw [get?_cons, get?_cons, ih]
      by_cases found : old.name = name
      · rw [if_pos found, if_pos found, if_neg (fun same => other (found.trans same.symm))]
      · rw [if_neg found, if_neg found]

theorem get?_erase (members : Members) (gone name : String) :
    (members.erase gone).get? name = if gone = name then none else members.get? name := by
  induction members with
  | nil => simp [erase]
  | cons member rest ih =>
    obtain ⟨key, item⟩ := member
    rw [erase, List.filter_cons]
    split
    · next kept =>
      have kept : key.name ≠ gone := by simpa using kept
      rw [get?_cons, get?_cons]
      show (if key.name = name then _ else (erase rest gone).get? name) = _
      rw [ih]
      by_cases found : key.name = name
      · rw [if_pos found, if_pos found, if_neg (fun same => kept (found.trans same.symm))]
      · rw [if_neg found, if_neg found]
    · next dropped =>
      have dropped : key.name = gone := by simpa using dropped
      show (erase rest gone).get? name = _
      rw [ih, get?_cons, dropped]
      split <;> rfl

end Members

theorem memberShapes_apply (members : Members) (name : String) :
    memberShapes members name = (members.get? name).map Item.shape := by
  induction members with
  | nil => rfl
  | cons member rest ih =>
    rw [Members.get?_cons]
    show (if member.1.name = name then _ else memberShapes rest name) = _
    rw [ih]
    split <;> rfl

theorem memberShapes_nil : memberShapes [] = fun _ => none := rfl

theorem memberShapes_append {members : Members} {key : Key}
    (fresh : members.get? key.name = none) (item : Item) :
    memberShapes (members ++ [(key, item)]) =
      Function.update (memberShapes members) key.name (some item.shape) := by
  funext name
  rw [memberShapes_apply, Members.get?_append, Members.get?_cons]
  by_cases same : key.name = name
  · subst same
    simp [fresh]
  · rw [Function.update_of_ne (Ne.symm same), memberShapes_apply]
    simp [same]

theorem memberShapes_set (key : Key) (item : Item) (members : Members) :
    memberShapes (members.set key item) =
      Function.update (memberShapes members) key.name (some item.shape) := by
  funext name
  rw [memberShapes_apply, Members.get?_set]
  by_cases same : key.name = name
  · subst same
    simp
  · rw [Function.update_of_ne (Ne.symm same), memberShapes_apply, if_neg same]

theorem memberShapes_erase_append (key : Key) (item : Item) (members : Members) :
    memberShapes (members.erase key.name ++ [(key, item)]) =
      Function.update (memberShapes members) key.name (some item.shape) := by
  funext name
  rw [memberShapes_apply, Members.get?_append, Members.get?_erase, Members.get?_cons]
  by_cases same : key.name = name
  · subst same
    simp
  · rw [Function.update_of_ne (Ne.symm same), memberShapes_apply]
    simp [same]

/-! ### Steps on shapes -/

namespace Shape

/-- Lets a name that stands for nothing stand for a shape. -/
def fresh (shape : Shape) : Option Shape → Option Shape
  | none => some shape
  | some _ => none

/-- Goes on in a table without a header, which stems from dotted keys then. -/
def dots (inner : Fields → Option Fields) : Option Shape → Option Shape
  | none => (inner fun _ => none).map (table true true)
  | some (table implicit _ members) =>
    if implicit then (inner members).map (table implicit true) else none
  | some _ => none

/-- Opens a table by its header. -/
def opened (fill : Fields → Option Fields) : Option Shape → Option Shape
  | none => (fill fun _ => none).map (table false false)
  | some (table implicit dotted members) =>
    if implicit ∧ ¬ dotted then (fill members).map (table false false) else none
  | some _ => none

/-- Adds a table to an array of tables. -/
def added (fill : Fields → Option Fields) : Option Shape → Option Shape
  | none => (fill fun _ => none).map fun filled => tables [filled]
  | some (tables elements) => (fill fun _ => none).map fun filled => tables (elements ++ [filled])
  | some _ => none

/-- Goes on in a table that a header leads through. -/
def inside (inner : Fields → Option Fields) : Option Shape → Option Shape
  | none => (inner fun _ => none).map (table true false)
  | some (table implicit dotted members) => (inner members).map (table implicit dotted)
  | some (tables elements) =>
    match elements.getLast? with
    | none => none
    | some last => (inner last).map fun members => tables (elements.dropLast ++ [members])
  | some _ => none

end Shape

/-- A line below a header: the names of its keys and the shape of its value. -/
abbrev LineShape := List String × String × Shape

namespace Fields

/-- No fields. -/
def empty : Fields := fun _ => none

/-- Changes what one name stands for. -/
def change (name : String) (step : Option Shape → Option Shape) (fields : Fields) :
    Option Fields :=
  (step (fields name)).map fun shape => Function.update fields name (some shape)

/-- Defines a name below a row of dotted names. -/
def define (leaf : String) (shape : Shape) : List String → Fields → Option Fields
  | [] => change leaf (Shape.fresh shape)
  | name :: path => change name (Shape.dots (define leaf shape path))

/-- Defines names, one after the other. -/
def fill (lines : List LineShape) (fields : Fields) : Option Fields :=
  lines.foldlM (fun fields line => define line.2.1 line.2.2 line.1 fields) fields

/-- Changes the table at the end of a row of names that a header leads through. -/
def within (inner : Fields → Option Fields) : List String → Fields → Option Fields
  | [] => inner
  | name :: path => change name (Shape.inside (within inner path))

end Fields

/-- A header with the lines below it, by its names. -/
structure Outline where
  element : Bool
  path : List String
  leaf : String
  lines : List LineShape

/-- Adds a header with its lines. -/
def Outline.addTo (outline : Outline) : Fields → Option Fields :=
  Fields.within (Fields.change outline.leaf
    (if outline.element then Shape.added (Fields.fill outline.lines)
      else Shape.opened (Fields.fill outline.lines))) outline.path

/-! ### Trees and their shapes -/

/-- What a line says. -/
def lineShape (line : List Key × Key × Item) : LineShape :=
  (line.1.map Key.name, line.2.1.name, line.2.2.shape)

theorem memberShapes_define (leaf : Key) (item : Item) (path : List Key) (members : Members) :
    (members.define leaf item path).map memberShapes =
      (memberShapes members).define leaf.name item.shape (path.map Key.name) := by
  induction path generalizing members with
  | nil =>
    rw [Members.define, List.map_nil, Fields.define, Fields.change, memberShapes_apply]
    cases found : members.get? leaf.name with
    | none => simp [Shape.fresh, memberShapes_append found]
    | some old => simp [Shape.fresh]
  | cons key path ih =>
    rw [Members.define, List.map_cons, Fields.define, Fields.change, memberShapes_apply]
    cases found : members.get? key.name with
    | none =>
      have below := ih []
      rw [memberShapes_nil] at below
      simp only [Option.map_none, Shape.dots, ← below, Option.map_map]
      congr 1
      funext filled
      simp [memberShapes_append found, Item.shape, Heading.ofDots]
    | some old =>
      cases old with
      | table heading below =>
        simp only [Option.map_some, Item.shape, Shape.dots, ← ih below]
        split
        · rw [Option.map_map, Option.map_map, Option.map_map]
          congr 1
          funext filled
          simp [memberShapes_set, Item.shape]
        · rfl
      | _ => rfl

theorem memberShapes_fill (lines : List (List Key × Key × Item)) (members : Members) :
    (Toml.fill lines members).map memberShapes =
      (memberShapes members).fill (lines.map lineShape) := by
  induction lines generalizing members with
  | nil => rfl
  | cons line lines ih =>
    have first := memberShapes_define line.2.1 line.2.2 line.1 members
    rw [Toml.fill, List.foldlM_cons, List.map_cons, Fields.fill, List.foldlM_cons]
    simp only [lineShape, ← first]
    cases members.define line.2.1 line.2.2 line.1 with
    | none => rfl
    | some defined => exact ih defined

theorem memberShapes_openTable (key : Key) {heading : Heading} (own : heading.implicit = false)
    (plain : heading.dotted = false) {fill : Members → Option Members}
    {fillShapes : Fields → Option Fields}
    (fills : ∀ members, (fill members).map memberShapes = fillShapes (memberShapes members))
    (members : Members) :
    (members.openTable key heading fill).map memberShapes =
      (memberShapes members).change key.name (Shape.opened fillShapes) := by
  rw [Members.openTable, Fields.change, memberShapes_apply]
  cases found : members.get? key.name with
  | none =>
    have below := fills []
    rw [memberShapes_nil] at below
    simp only [Option.map_none, Shape.opened, ← below, Option.map_map]
    congr 1
    funext filled
    simp [memberShapes_append found, Item.shape, own, plain]
  | some old =>
    cases old with
    | table heading' below =>
      simp only [Option.map_some, Item.shape, Shape.opened, ← fills below]
      split
      · rw [Option.map_map, Option.map_map, Option.map_map]
        congr 1
        funext filled
        simp [memberShapes_erase_append, Item.shape, own, plain]
      · rfl
    | _ => rfl

theorem memberShapes_addTable (key : Key) (heading : Heading) {fill : Members → Option Members}
    {fillShapes : Fields → Option Fields}
    (fills : ∀ members, (fill members).map memberShapes = fillShapes (memberShapes members))
    (members : Members) :
    (members.addTable key heading fill).map memberShapes =
      (memberShapes members).change key.name (Shape.added fillShapes) := by
  have below := fills []
  rw [memberShapes_nil] at below
  rw [Members.addTable, Fields.change, memberShapes_apply]
  cases found : members.get? key.name with
  | none =>
    simp only [Option.map_none, Shape.added, ← below, Option.map_map]
    congr 1
    funext filled
    simp [memberShapes_append found, Item.shape, elementShapes]
  | some old =>
    cases old with
    | tables elements =>
      simp only [Option.map_some, Item.shape, Shape.added, ← below, Option.map_map]
      congr 1
      funext filled
      simp [memberShapes_set, Item.shape, elementShapes_eq]
    | _ => rfl

theorem memberShapes_within {change : Members → Option Members}
    {changeShapes : Fields → Option Fields}
    (changes : ∀ members, (change members).map memberShapes = changeShapes (memberShapes members))
    (path : List Key) (members : Members) :
    (members.within change path).map memberShapes =
      (memberShapes members).within changeShapes (path.map Key.name) := by
  induction path generalizing members with
  | nil => exact changes members
  | cons key path ih =>
    rw [Members.within, List.map_cons, Fields.within, Fields.change, memberShapes_apply]
    cases found : members.get? key.name with
    | none =>
      have below := ih []
      rw [memberShapes_nil] at below
      simp only [Option.map_none, Shape.inside, ← below, Option.map_map]
      congr 1
      funext changed
      simp [memberShapes_append found, Item.shape, Heading.mentioned]
    | some old =>
      cases old with
      | table heading below =>
        simp only [Option.map_some, Item.shape, Shape.inside, ← ih below, Option.map_map]
        congr 1
        funext changed
        simp [memberShapes_set, Item.shape]
      | tables elements =>
        simp only [Option.map_some, Item.shape, Shape.inside, elementShapes_eq,
          List.getLast?_map]
        cases last : elements.getLast? with
        | none => rfl
        | some element =>
          obtain ⟨heading, below⟩ := element
          simp only [Option.map_some, ← ih below, Option.map_map]
          congr 1
          funext changed
          simp [memberShapes_set, Item.shape, elementShapes_eq, List.map_dropLast]
      | _ => rfl

/-- A header with the lines below it, by its names. -/
def Part.outline (part : Part) : Outline :=
  ⟨part.element, part.path.map Key.name, part.leaf.name, part.pairs.map lineShape⟩

/-- Adding a header with its lines to a tree does to its shape what it does on shapes. -/
theorem memberShapes_addTo {part : Part} (own : part.heading.implicit = false)
    (plain : part.heading.dotted = false) (top : Members) :
    (part.addTo top).map memberShapes = part.outline.addTo (memberShapes top) := by
  have fills := memberShapes_fill part.pairs
  rw [Part.addTo, Outline.addTo]
  refine memberShapes_within (fun members => ?_) part.path top
  cases element : part.element with
  | true =>
    simp only [Part.outline, element, if_true]
    exact memberShapes_addTable part.leaf part.heading fills members
  | false =>
    simp only [Part.outline, element, Bool.false_eq_true, if_false]
    exact memberShapes_openTable part.leaf own plain fills members

end StyleMonitor.Toml
