import Mathlib.Data.List.TakeWhile
import StyleMonitor.Text.Blank
import StyleMonitor.Text.Lines

/-!
# Lines of texts one after the other

Where a text ends at the end of a line, what follows it has lines of its own: the lines of both
together are those of the first and then those of the second.
-/

namespace StyleMonitor.Text

variable {α : Type} [DecidableEq α]

theorem segments_ne_nil (mark : α) {s : List α} (some : s ≠ []) : segments mark s ≠ [] := by
  cases s with
  | nil => exact absurd rfl some
  | cons c rest =>
    rw [segments]
    split
    · simp
    · split <;> simp

/-- A sequence that ends in a mark is cut apart from what follows it. -/
theorem segments_append (mark : α) (s t : List α) (ends : ∀ c ∈ s.getLast?, c = mark) :
    segments mark (s ++ t) = segments mark s ++ segments mark t := by
  induction s with
  | nil => rfl
  | cons c rest ih =>
    cases rest with
    | nil =>
      have marked : c = mark := ends c rfl
      simp [segments, marked]
    | cons d more =>
      have cut := ih (by simpa [List.getLast?_cons_cons] using ends)
      rw [List.cons_append, segments, segments, cut]
      by_cases marked : c = mark
      · rw [if_pos marked, if_pos marked, List.cons_append]
      · rw [if_neg marked, if_neg marked]
        cases found : segments mark (d :: more) with
        | nil => exact absurd found (segments_ne_nil mark (List.cons_ne_nil d more))
        | cons piece others => rfl

/-- The lines of a text that ends at the end of a line, and of what follows it. -/
theorem linesOf_append (first second : String) (ends : first = "" ∨ ∃ body, first = body ++ "\n") :
    linesOf (first ++ second) = linesOf first ++ linesOf second := by
  have last : ∀ c ∈ first.toList.getLast?, c = '\n' := by
    rcases ends with rfl | ⟨body, rfl⟩
    · simp
    · simp
  simp only [linesOf, lines, String.toList_append, segments_append '\n' _ second.toList last,
    List.map_append]

theorem trimEnd_eq_nil_iff {s : List Char} : trimEnd s = [] ↔ ∀ c ∈ s, isBlank c = true := by
  simp [trimEnd, List.dropWhile_eq_nil_iff]

/-- Trimming leaves nothing exactly of a text that is all blank. -/
theorem trim_eq_nil_iff {s : List Char} : trim s = [] ↔ ∀ c ∈ s, isBlank c = true := by
  rw [trim, trimEnd_eq_nil_iff]
  constructor
  · intro blank c member
    rw [← List.takeWhile_append_dropWhile (p := isBlank) (l := s)] at member
    rcases List.mem_append.mp member with taken | dropped
    · exact List.mem_takeWhile_imp taken
    · exact blank c dropped
  · intro blank c member
    exact blank c ((List.dropWhile_sublist isBlank).mem member)

end StyleMonitor.Text
