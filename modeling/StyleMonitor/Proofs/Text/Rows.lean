import StyleMonitor.Text.Rows

/-!
# What rows of marks say

A row may mark the suffixes that pass a test. The rows that the elements of a pattern make of it
mark the suffixes that pass a test again, so the meaning of a pattern can be read off the tests,
with no rows in it.
-/

namespace StyleMonitor.Text

variable {α : Type} {ok : α → Bool} {test : List α → Bool}

/-- The row that marks the suffixes that pass a test. -/
def rowOf (test : List α → Bool) : List α → List Bool
  | [] => [test []]
  | c :: rest => test (c :: rest) :: rowOf test rest

/-- Passes what starts with an element that `ok` accepts and goes on with what passes `test`. -/
def takesOne (ok : α → Bool) (test : List α → Bool) : List α → Bool
  | [] => false
  | c :: rest => ok c && test rest

/-- Passes what goes on with what passes `test` after any number of elements that `ok` accepts. -/
def takesRun (ok : α → Bool) (test : List α → Bool) : List α → Bool
  | [] => test []
  | c :: rest => test (c :: rest) || (ok c && takesRun ok test rest)

@[simp] theorem headD_rowOf (s : List α) : (rowOf test s).headD false = test s := by
  cases s <;> rfl

theorem endRow_eq (s : List α) : endRow s = rowOf List.isEmpty s := by
  induction s with
  | nil => rfl
  | cons c rest ih =>
    rw [rowOf, ← ih]
    rfl

theorem oneRow_rowOf (s : List α) : oneRow ok s (rowOf test s) = rowOf (takesOne ok test) s := by
  induction s with
  | nil => rfl
  | cons c rest ih => simp only [rowOf, oneRow, takesOne, headD_rowOf, ih]

theorem runRow_rowOf (s : List α) : runRow ok s (rowOf test s) = rowOf (takesRun ok test) s := by
  induction s with
  | nil => rfl
  | cons c rest ih => simp only [rowOf, runRow, takesRun, headD_rowOf, ih]

theorem takesOne_iff {s : List α} : takesOne ok test s = true ↔
    ∃ c rest, s = c :: rest ∧ ok c = true ∧ test rest = true := by
  cases s with
  | nil => simp [takesOne]
  | cons c rest =>
    rw [takesOne, Bool.and_eq_true]
    constructor
    · rintro ⟨first, later⟩
      exact ⟨c, rest, rfl, first, later⟩
    · rintro ⟨d, after, split, first, later⟩
      obtain ⟨rfl, rfl⟩ := List.cons.inj split
      exact ⟨first, later⟩

theorem takesRun_iff {s : List α} : takesRun ok test s = true ↔
    ∃ run rest, s = run ++ rest ∧ (∀ c ∈ run, ok c = true) ∧ test rest = true := by
  induction s with
  | nil =>
    constructor
    · exact fun here => ⟨[], [], rfl, by simp, here⟩
    · rintro ⟨run, rest, split, -, here⟩
      obtain ⟨rfl, rfl⟩ := List.append_eq_nil_iff.mp split.symm
      exact here
  | cons c rest ih =>
    rw [takesRun, Bool.or_eq_true, Bool.and_eq_true, ih]
    constructor
    · rintro (here | ⟨first, run, after, rfl, accepted, later⟩)
      · exact ⟨[], c :: rest, rfl, by simp, here⟩
      · exact ⟨c :: run, after, rfl, by simpa using ⟨first, accepted⟩, later⟩
    · rintro ⟨run, after, split, accepted, later⟩
      cases run with
      | nil =>
        rw [List.nil_append] at split
        exact Or.inl (split ▸ later)
      | cons d run =>
        obtain ⟨rfl, rfl⟩ := List.cons.inj split
        simp only [List.forall_mem_cons] at accepted
        exact Or.inr ⟨accepted.1, run, after, rfl, accepted.2, later⟩

end StyleMonitor.Text
