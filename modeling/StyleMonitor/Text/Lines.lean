/-!
Lines of a sequence. A line ends at a newline, and a return directly before that newline belongs
to the line's end. A last line without a newline counts when it holds anything, and keeps a
return it ends with. The same rule serves characters and bytes.
-/

namespace StyleMonitor.Text

variable {α : Type} [DecidableEq α]

/-- Cuts a sequence after every occurrence of `mark`. Each piece comes without its mark, with
a flag that says whether the mark was there: only the last piece can lack it. -/
def segments (mark : α) : List α → List (List α × Bool)
  | [] => []
  | c :: rest =>
    if c = mark then ([], true) :: segments mark rest
    else match segments mark rest with
      | [] => [([c], false)]
      | (piece, ended) :: more => (c :: piece, ended) :: more

/-- A sequence without one last `x`, when it ends in one. -/
def dropFinal (x : α) : List α → List α
  | [] => []
  | [c] => if c = x then [] else [c]
  | c :: d :: rest => c :: dropFinal x (d :: rest)

/-- What a segment holds as a line: a return before the newline is part of the line's end. -/
def lineBody (ret : α) (segment : List α × Bool) : List α :=
  if segment.2 then dropFinal ret segment.1 else segment.1

/-- The lines of a text. -/
def lines (s : List Char) : List (List Char) :=
  (segments '\n' s).map (lineBody '\r')

/-- `lines` on strings. -/
def linesOf (s : String) : List String :=
  (lines s.toList).map String.ofList

@[simp] theorem segments_nil (mark : α) : segments mark [] = [] := rfl

/-- Putting the marks back gives the sequence: no part of it is lost. -/
theorem flatten_segments (mark : α) (s : List α) :
    ((segments mark s).map fun p => if p.2 then p.1 ++ [mark] else p.1).flatten = s := by
  induction s with
  | nil => rfl
  | cons c rest ih =>
    by_cases h : c = mark
    · simp [segments, h, ih]
    · rw [segments, if_neg h]
      split
      · next none => rw [none] at ih; simpa using ih
      · next piece ended more some =>
        rw [some] at ih
        cases ended <;> simp_all

end StyleMonitor.Text
