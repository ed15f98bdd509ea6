import StyleMonitor.Text.Fields

/-!
TOML documents as trees that keep the way they are written: every key and every value comes with
the blanks and comments around it. `Value` is what a tree means, without its layout.
-/

namespace StyleMonitor.Toml

/-- The text before and after an element. Where it is `none`, nothing was written, and the place
of the element decides. -/
structure Decor where
  before : Option (List Char) := none
  after : Option (List Char) := none
  deriving DecidableEq, Repr

namespace Decor

/-- A decoration that is written out. -/
def written (before after : List Char) : Decor := ⟨some before, some after⟩

/-- A text with its decoration, or what stands for a missing part of it. -/
def around (decor : Decor) (before after text : List Char) : List Char :=
  decor.before.getD before ++ text ++ decor.after.getD after

end Decor

/-- A key: its name and its spelling. One decoration belongs to it as the last key of a row,
where it goes around the whole row, and one to it between the dots. -/
structure Key where
  name : String
  spelling : List Char
  outer : Decor := {}
  dotted : Decor := {}
  deriving DecidableEq, Repr

/-- A key of a name that needs no quotes. -/
def Key.plain (name : String) : Key := ⟨name, name.toList, {}, {}⟩

/-- A value without parts. -/
inductive Scalar where
  | string (content : String)
  | integer (value : Int)
  /-- A floating-point number. All that is kept of it is whether it is too large for 64 bits. -/
  | float (overflows : Bool)
  | boolean (value : Bool)
  /-- A date, a time, or both. -/
  | moment
  deriving DecidableEq, Repr

/-- How a table came to be. -/
structure Heading where
  /-- The text before and after its header. -/
  decor : Decor := {}
  /-- Whether it has no header of its own. -/
  implicit : Bool := false
  /-- Whether it stems from a dotted key. -/
  dotted : Bool := false
  /-- The number of its header in the document. -/
  position : Option Nat := none
  deriving DecidableEq, Repr

namespace Heading

/-- The heading of a table that only headers of tables below it mention. -/
def mentioned : Heading := { implicit := true }

/-- The heading of a table that stems from a dotted key. -/
def ofDots : Heading := { implicit := true, dotted := true }

end Heading

/-- What a key stands for. In an inline table, the tables are those of dotted keys. -/
inductive Item where
  | scalar (decor : Decor) (spelling : List Char) (value : Scalar)
  /-- An array; `ending` is what stands between its last item and its closing bracket. -/
  | array (decor : Decor) (items : List Item) (ending : List Char)
  | inline (decor : Decor) (members : List (Key × Item)) (ending : List Char)
  | table (heading : Heading) (members : List (Key × Item))
  /-- An array of tables, each with a header. -/
  | tables (elements : List (Heading × List (Key × Item)))

/-- The keys of a table and what they stand for, in order. -/
abbrev Members := List (Key × Item)

/-- What a document means, without its layout. -/
inductive Value where
  | scalar (value : Scalar)
  | array (items : List Value)
  | table (members : List (String × Value))

mutual

/-- The meaning of an item. -/
def Item.value : Item → Value
  | .scalar _ _ value => .scalar value
  | .array _ items _ => .array (itemValues items)
  | .inline _ members _ => .table (memberValues members)
  | .table _ members => .table (memberValues members)
  | .tables elements => .array (elementValues elements)

/-- The meanings of items. -/
def itemValues : List Item → List Value
  | [] => []
  | item :: rest => item.value :: itemValues rest

/-- The meanings of the members of a table. -/
def memberValues : List (Key × Item) → List (String × Value)
  | [] => []
  | (key, item) :: rest => (key.name, item.value) :: memberValues rest

/-- The meanings of tables. -/
def elementValues : List (Heading × List (Key × Item)) → List Value
  | [] => []
  | (_, members) :: rest => .table (memberValues members) :: elementValues rest

end

namespace Item

/-- Puts a decoration around a value. -/
def decorated (decor : Decor) : Item → Item
  | scalar _ spelling value => scalar decor spelling value
  | array _ items ending => array decor items ending
  | inline _ members ending => inline decor members ending
  | item => item

/-- A truth value that is not decorated yet. -/
def boolean (value : Bool) : Item :=
  scalar {} (if value then "true".toList else "false".toList) (.boolean value)

end Item

namespace Members

/-- What a name stands for. -/
def get? (members : Members) (name : String) : Option Item :=
  (members.find? (·.1.name == name)).map (·.2)

/-- Lets a key stand for something else. The key that is there stays as it is written; a new one
comes last. -/
def set (key : Key) (item : Item) : Members → Members
  | [] => [(key, item)]
  | (old, was) :: rest =>
    if old.name = key.name then (old, item) :: rest else (old, was) :: set key item rest

/-- Leaves a name out. -/
def erase (members : Members) (name : String) : Members :=
  members.filter (·.1.name ≠ name)

/-- Defines a key below a row of dotted keys. `none` if it is there already, or if a table on the
way has a header or is none. Each table on the way stems from the dotted keys then, also one that
headers of tables below it mentioned before. -/
def define (leaf : Key) (item : Item) : List Key → Members → Option Members
  | [], members =>
    match members.get? leaf.name with
    | none => some (members ++ [(leaf, item)])
    | some _ => none
  | key :: path, members =>
    match members.get? key.name with
    | none => (define leaf item path []).map fun below => members ++ [(key, .table .ofDots below)]
    | some (.table heading below) =>
      if heading.implicit then
        (define leaf item path below).map fun below =>
          members.set key (.table { heading with dotted := true } below)
      else none
    | some _ => none

/-- Opens the table that a header names and fills it. A table that was only mentioned so far
moves to the end; one that has a header is not opened again. -/
def openTable (key : Key) (heading : Heading) (fill : Members → Option Members)
    (members : Members) : Option Members :=
  match members.get? key.name with
  | none => (fill []).map fun filled => members ++ [(key, .table heading filled)]
  | some (.table old below) =>
    if old.implicit ∧ ¬ old.dotted then
      (fill below).map fun filled => members.erase key.name ++ [(key, .table heading filled)]
    else none
  | some _ => none

/-- Adds a table to the array of tables that a header names, and fills it. -/
def addTable (key : Key) (heading : Heading) (fill : Members → Option Members)
    (members : Members) : Option Members :=
  match members.get? key.name with
  | none => (fill []).map fun filled => members ++ [(key, .tables [(heading, filled)])]
  | some (.tables elements) =>
    (fill []).map fun filled => members.set key (.tables (elements ++ [(heading, filled)]))
  | some _ => none

/-- Changes the table at the end of a row of keys. In an array of tables the row goes on in the
last one. -/
def within (change : Members → Option Members) : List Key → Members → Option Members
  | [], members => change members
  | key :: path, members =>
    match members.get? key.name with
    | none =>
      (within change path []).map fun below => members ++ [(key, .table .mentioned below)]
    | some (.table heading below) =>
      (within change path below).map fun below => members.set key (.table heading below)
    | some (.tables elements) =>
      match elements.getLast? with
      | none => none
      | some (heading, below) =>
        (within change path below).map fun below =>
          members.set key (.tables (elements.dropLast ++ [(heading, below)]))
    | some _ => none

end Members

end StyleMonitor.Toml
