import StyleMonitor.Toml.Document

/-!
Editing a document in place: giving one setting of one table a new value. What is written stays
as it is, but for the value and what stood around it.
-/

namespace StyleMonitor.Toml

mutual

/-- Whether all numbers of an item fit into 64 bits. -/
def Item.fits : Item → Bool
  | .scalar _ _ (.integer n) => -(Int.pow 2 63) ≤ n && n < Int.pow 2 63
  | .scalar _ _ (.float overflows) => !overflows
  | .scalar _ _ _ => true
  | .array _ items _ => itemsFit items
  | .inline _ members _ => membersFit members
  | .table _ members => membersFit members
  | .tables elements => elementsFit elements

/-- Whether all numbers of an array fit. -/
def itemsFit : List Item → Bool
  | [] => true
  | item :: rest => item.fits && itemsFit rest

/-- Whether all numbers of a table fit. -/
def membersFit : List (Key × Item) → Bool
  | [] => true
  | (_, item) :: rest => item.fits && membersFit rest

/-- Whether all numbers of an array of tables fit. -/
def elementsFit : List (Heading × List (Key × Item)) → Bool
  | [] => true
  | (_, members) :: rest => membersFit members && elementsFit rest

end

namespace Members

/-- The table of a name, if the name stands for one that is not written inline
(`Table::contains_table`): its heading and its members. -/
def table? (members : Members) (name : String) : Option (Heading × Members) :=
  match members.get? name with
  | some (.table heading below) => some (heading, below)
  | _ => none

/-- Gives a key of a table a value. Whatever else has the table's name makes way for a new
table. -/
def setIn (table key : String) (item : Item) (members : Members) : Members :=
  let (heading, below) := (members.table? table).getD ({}, [])
  members.set (.plain table) (.table heading (below.set (.plain key) item))

end Members

namespace Document

/-- Reads a text as a document that can be edited. -/
def ofEditable? (text : String) : Option Document :=
  (ofText? text).filter fun document => membersFit document.top

/-- Gives a key of a table a value. -/
def setIn (table key : String) (item : Item) (document : Document) : Document :=
  { document with top := document.top.setIn table key item }

end Document

end StyleMonitor.Toml
