import StyleMonitor.Toml.Tree

/-!
Rendering: the text of a tree. Headers come in the order of their numbers; a table without a
number goes where the one before it in the tree goes. Below a header come the table's own keys,
with those of dotted tables where the first of them stands.
-/

namespace StyleMonitor.Toml

/-- A row of keys with its decoration, or what stands for a missing part of it. -/
def rowText (before after : List Char) (row : List Key) : List Char :=
  let inner := row.mapIdx fun i key =>
    (if i = 0 then [] else key.dotted.before.getD []) ++ key.spelling ++
      (if i + 1 = row.length then [] else key.dotted.after.getD [])
  ((row.getLast?.map Key.outer).getD {}).around before after (Text.joinFields '.' inner)

mutual

/-- The text of a value. Tables with headers have none. -/
def Item.text (before after : List Char) : Item → List Char
  | .scalar decor spelling _ => decor.around before after spelling
  | .array decor items ending =>
    decor.around before after ('[' :: Text.joinFields ',' (itemTexts items) ++ ending ++ [']'])
  | .inline decor members ending =>
    decor.around before after
      ('{' :: Text.joinFields ',' (memberTexts [] members) ++ ending ++ ['}'])
  | .table _ _ => []
  | .tables _ => []

/-- The texts of the items of an array. -/
def itemTexts : List Item → List (List Char)
  | [] => []
  | item :: rest => item.text [] [] :: itemTexts rest

/-- The texts of keys with their values, below a row of dotted keys. -/
def memberTexts (row : List Key) : List (Key × Item) → List (List Char)
  | [] => []
  | (key, .table heading members) :: rest =>
    (if heading.dotted then memberTexts (row ++ [key]) members else []) ++ memberTexts row rest
  | (_, .tables _) :: rest => memberTexts row rest
  | (key, item) :: rest =>
    (rowText [] [' '] (row ++ [key]) ++ '=' :: item.text [' '] []) :: memberTexts row rest

end

/-- A table with its header and its own keys. -/
structure Section where
  heading : Heading
  row : List Key
  /-- Whether it is an element of an array of tables. -/
  element : Bool
  lines : List (List Char)

namespace Section

/-- Whether anything is to be seen of it. -/
def isVisible (part : Section) : Bool :=
  part.element || !(part.heading.implicit && part.lines.isEmpty)

/-- The row of keys of a header, with what goes before its brackets. A key that had a value keeps
the comments and empty lines before it: these go before the brackets, and the row has no blanks
around it then. -/
def headed (row : List Key) : List Char × List Key :=
  match row.getLast? with
  | none => ([], row)
  | some leaf =>
    let before := leaf.outer.before.getD []
    if before.contains '\n' then (before, row.dropLast ++ [{ leaf with outer := {} }])
    else ([], row)

/-- The text of its header. Except at the top, a header that is not decorated has an empty line
before it. -/
def headerText (first : Bool) (part : Section) : List Char :=
  let (before, row) := headed part.row
  let row := rowText [] [] row
  part.heading.decor.around (if first then [] else ['\n']) []
    (before ++ if part.element then "[[".toList ++ row ++ "]]".toList else '[' :: row ++ [']']) ++
      ['\n']

/-- The lines of its keys. -/
def bodyText (part : Section) : List Char :=
  part.lines.flatMap (· ++ ['\n'])

/-- The text of the sections of a document. The section without a row is the top of the
document and has no header. `first` tells whether nothing came before. -/
def textOf (first : Bool) : List Section → List Char
  | [] => []
  | part :: rest =>
    if part.row.isEmpty then part.bodyText ++ textOf (first && part.lines.isEmpty) rest
    else if part.isVisible then part.headerText first ++ part.bodyText ++ textOf false rest
    else textOf first rest

/-- Numbers the sections: one without a number takes that of the section before it. -/
def numbered : Nat → List Section → List (Nat × Section)
  | _, [] => []
  | last, part :: rest =>
    let number := part.heading.position.getD last
    (number, part) :: numbered number rest

/-- The sections in the order of their numbers. -/
def ordered (parts : List Section) : List Section :=
  ((numbered 0 parts).mergeSort fun a b => a.1 ≤ b.1).map (·.2)

end Section

mutual

/-- The sections of the tables below a row of keys, in the order of the tree. -/
def sectionsBelow (row : List Key) : List (Key × Item) → List Section
  | [] => []
  | (key, .table heading members) :: rest =>
    (if heading.dotted then [] else [⟨heading, row ++ [key], false, memberTexts [] members⟩]) ++
      sectionsBelow (row ++ [key]) members ++ sectionsBelow row rest
  | (key, .tables elements) :: rest =>
    sectionsOfElements (row ++ [key]) elements ++ sectionsBelow row rest
  | _ :: rest => sectionsBelow row rest

/-- The sections of an array of tables. -/
def sectionsOfElements (row : List Key) : List (Heading × List (Key × Item)) → List Section
  | [] => []
  | (heading, members) :: rest =>
    ⟨heading, row, true, memberTexts [] members⟩ :: sectionsBelow row members ++
      sectionsOfElements row rest

end

/-- The sections of a whole tree, from the top on. -/
def sections (members : Members) : List Section :=
  ⟨{}, [], false, memberTexts [] members⟩ :: sectionsBelow [] members

end StyleMonitor.Toml
