/-!
Rows of marks: for a sequence, one mark for each of its suffixes, the longest first and the empty
one last. A matcher works from its last element to its first: it starts with the row that marks
the empty suffix, and each element turns the row of what follows it into its own.
-/

namespace StyleMonitor.Text

variable {α : Type}

/-- The row that marks the empty suffix alone. -/
def endRow (s : List α) : List Bool :=
  s.map (fun _ => false) ++ [true]

/-- Marks the suffixes that start with an element that `ok` accepts and go on with a marked
suffix. -/
def oneRow (ok : α → Bool) : List α → List Bool → List Bool
  | c :: rest, _ :: row => (ok c && row.headD false) :: oneRow ok rest row
  | _, _ => [false]

/-- Marks the suffixes that go on with a marked suffix after any number of elements that `ok`
accepts. -/
def runRow (ok : α → Bool) : List α → List Bool → List Bool
  | c :: rest, here :: row =>
    let later := runRow ok rest row
    (here || (ok c && later.headD false)) :: later
  | _, row => row

end StyleMonitor.Text
