import Mathlib.Data.List.DropRight
import StyleMonitor.Proofs.Path.Relative
import StyleMonitor.Text.Blank

/-!
# Trimming texts and their fields

Blanks are trimmed from either end without regard to the other one. Trimming a row of fields trims
the first one at its start and the last one at its end, so the fields come out the same once they
are trimmed themselves.
-/

namespace StyleMonitor.Text

theorem trimEnd_cons (c : Char) (s : List Char) :
    trimEnd (c :: s) = if trimEnd s = [] ∧ isBlank c = true then [] else c :: trimEnd s := by
  simp only [trimEnd, List.reverse_cons, List.dropWhile_append, List.reverse_eq_nil_iff,
    List.isEmpty_iff]
  by_cases blank : List.dropWhile isBlank s.reverse = []
  · by_cases first : isBlank c = true
    · simp [blank, first]
    · simp [blank, first]
  · simp [blank]

theorem trimStart_append_cons {s t : List Char} {c : Char} (mark : isBlank c = false) :
    trimStart (s ++ c :: t) = trimStart s ++ c :: t := by
  rw [trimStart, List.dropWhile_append]
  split
  · next none => simp [trimStart, List.isEmpty_iff.mp none, mark]
  · rfl

theorem trimEnd_append_cons {s t : List Char} {c : Char} (mark : isBlank c = false) :
    trimEnd (s ++ c :: t) = s ++ c :: trimEnd t := by
  induction s with
  | nil => simp [trimEnd_cons, mark]
  | cons d rest ih => simp [trimEnd_cons, ih]

theorem trimStart_trimStart (s : List Char) : trimStart (trimStart s) = trimStart s :=
  List.dropWhile_idempotent isBlank s

theorem trimEnd_trimEnd (s : List Char) : trimEnd (trimEnd s) = trimEnd s := by
  simp [trimEnd, List.dropWhile_idempotent]

theorem trimStart_trimEnd (s : List Char) : trimStart (trimEnd s) = trimEnd (trimStart s) := by
  induction s with
  | nil => rfl
  | cons c rest ih =>
    by_cases blank : isBlank c = true
    · have next : trimStart (c :: rest) = trimStart rest := by simp [trimStart, blank]
      rw [next, ← ih, trimEnd_cons]
      by_cases none : trimEnd rest = []
      · simp [none, blank]
      · rw [if_neg (by simp [none])]
        simp [trimStart, blank]
    · have stays : ∀ more, trimStart (c :: more) = c :: more := by simp [trimStart, blank]
      rw [stays, trimEnd_cons, if_neg (by simp [blank]), stays]

theorem trim_trimStart (s : List Char) : trim (trimStart s) = trim s := by
  rw [trim, trimStart_trimStart, trim]

theorem trim_trimEnd (s : List Char) : trim (trimEnd s) = trim s := by
  rw [trim, trimStart_trimEnd, trimEnd_trimEnd, trim]

theorem trim_trim (s : List Char) : trim (trim s) = trim s := by
  rw [show trim s = trimEnd (trimStart s) from rfl, trim_trimEnd, trim_trimStart]
  rfl

theorem trim_of_solid {s : List Char} (solid : ∀ c ∈ s, isBlank c = false) : trim s = s := by
  have start : trimStart s = s := by
    cases s with
    | nil => rfl
    | cons c rest => simp [trimStart, solid c List.mem_cons_self]
  have finish : trimEnd s = s := by
    rw [trimEnd, List.reverse_eq_iff]
    cases back : s.reverse with
    | nil => rfl
    | cons c rest =>
      have own : c ∈ s := List.mem_reverse.mp (back ▸ List.mem_cons_self)
      simp [solid c own]
  rw [trim, start, finish]

variable {sep : Char}

/-- The first field of a text that is trimmed at its end. -/
theorem fields_trimEnd_joinFields (mark : isBlank sep = false) {first : List Char}
    {more : List (List Char)} (none : ∀ piece ∈ first :: more, sep ∉ piece) :
    ∃ field rest, fields sep (trimEnd (joinFields sep (first :: more))) = field :: rest ∧
      trim field = trim first := by
  have own := none first List.mem_cons_self
  cases more with
  | nil =>
    have clean : sep ∉ trimEnd first := fun member =>
      own (List.mem_reverse.mp ((List.dropWhile_sublist _).mem (List.mem_reverse.mp member)))
    exact ⟨trimEnd first, [], by rw [joinFields_singleton, fields_of_not_mem clean], trim_trimEnd first⟩
  | cons second others =>
    refine ⟨first, fields sep (trimEnd (joinFields sep (second :: others))), ?_, rfl⟩
    rw [joinFields_cons_cons, trimEnd_append_cons mark, fields_append_sep, fields_of_not_mem own,
      List.singleton_append]

/-- The first two fields of a text that is trimmed, once they are trimmed themselves. -/
theorem fields_trim_joinFields (mark : isBlank sep = false) {first second : List Char}
    {more : List (List Char)} (none : ∀ piece ∈ first :: second :: more, sep ∉ piece) :
    ∃ one two rest, fields sep (trim (joinFields sep (first :: second :: more))) =
      one :: two :: rest ∧ trim one = trim first ∧ trim two = trim second := by
  obtain ⟨two, rest, found, same⟩ := fields_trimEnd_joinFields mark
    fun piece member => none piece (List.mem_cons_of_mem _ member)
  have own := none first List.mem_cons_self
  have clean : sep ∉ trimStart first := fun member =>
    own ((List.dropWhile_sublist _).mem member)
  refine ⟨trimStart first, two, rest, ?_, trim_trimStart first, same⟩
  rw [joinFields_cons_cons, trim, trimStart_append_cons mark, trimEnd_append_cons mark,
    fields_append_sep, fields_of_not_mem clean, found, List.singleton_append]

end StyleMonitor.Text
