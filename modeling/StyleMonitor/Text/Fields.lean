/-!
Fields of a text: the pieces between the occurrences of a separator. A text with `n` separators
has `n + 1` fields, and joining the fields gives the text back. The same rule serves characters and
bytes.
-/

namespace StyleMonitor.Text

variable {α : Type} [DecidableEq α]

/-- The pieces of a text between the occurrences of `sep`. -/
def fields (sep : α) : List α → List (List α)
  | [] => [[]]
  | c :: rest =>
    if c = sep then [] :: fields sep rest
    else match fields sep rest with
      | [] => [[c]]
      | piece :: more => (c :: piece) :: more

/-- The pieces with one separator between each two. -/
def joinFields (sep : Char) (pieces : List (List Char)) : List Char :=
  List.intercalate [sep] pieces

/-- Cuts at the first `sep`: what stands before it, and what stands after it. -/
def cutFirst (sep : Char) : List Char → Option (List Char × List Char)
  | [] => none
  | c :: rest =>
    if c = sep then some ([], rest)
    else (cutFirst sep rest).map fun (before, after) => (c :: before, after)

/-- Cuts at the last `sep`: what stands before it, and what stands after it. -/
def cutLast (sep : Char) (s : List Char) : Option (List Char × List Char) :=
  (cutFirst sep s.reverse).map fun (after, before) => (before.reverse, after.reverse)

theorem joinFields_singleton (sep : Char) (piece : List Char) : joinFields sep [piece] = piece := by
  simp [joinFields, List.intercalate]

theorem joinFields_cons_cons (sep : Char) (first second : List Char) (more : List (List Char)) :
    joinFields sep (first :: second :: more) = first ++ sep :: joinFields sep (second :: more) := by
  simp [joinFields, List.intercalate]

theorem fields_ne_nil (sep : α) (s : List α) : fields sep s ≠ [] := by
  cases s with
  | nil => simp [fields]
  | cons c rest =>
    rw [fields]
    split
    · simp
    · split <;> simp

/-- Joining the fields of a text gives the text. -/
theorem joinFields_fields (sep : Char) (s : List Char) : joinFields sep (fields sep s) = s := by
  induction s with
  | nil => rfl
  | cons c rest ih =>
    rw [fields]
    split
    · next h =>
      subst h
      cases found : fields c rest with
      | nil => exact absurd found (fields_ne_nil c rest)
      | cons piece more =>
        rw [found] at ih
        simp [joinFields, List.intercalate] at ih ⊢
        exact ih
    · cases found : fields sep rest with
      | nil => exact absurd found (fields_ne_nil sep rest)
      | cons piece more =>
        rw [found] at ih
        cases more <;> simp [joinFields, List.intercalate] at ih ⊢ <;> exact ih

/-- A text with `n` separators has `n + 1` fields. -/
theorem length_fields (sep : Char) (s : List Char) : (fields sep s).length = s.count sep + 1 := by
  induction s with
  | nil => rfl
  | cons c rest ih =>
    rw [fields]
    split
    · next h => subst h; simp [ih]
    · next h =>
      cases found : fields sep rest with
      | nil => exact absurd found (fields_ne_nil sep rest)
      | cons piece more =>
        rw [found] at ih
        simpa [List.count_cons, h] using ih

end StyleMonitor.Text
