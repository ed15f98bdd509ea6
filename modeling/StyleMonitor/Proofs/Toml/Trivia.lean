import Mathlib.Data.List.Basic
import Mathlib.Data.List.TakeWhile
import Mathlib.Tactic.Set
import StyleMonitor.Toml.Document

/-!
# Blanks, newlines and comments

The readers go through a text from left to right and look ahead by a few characters. So a piece
that was read once is read again in every text where what follows it stops the reader as well.
Here this is said of what stands between keys and values.
-/

namespace StyleMonitor.Toml

/-! ### Pieces -/

/-- A text without its first piece, which holds no carriage return. -/
def Eats (s rest : List Char) : Prop :=
  ∃ piece, s = piece ++ rest ∧ '\r' ∉ piece

namespace Eats

theorem refl (s : List Char) : Eats s s :=
  ⟨[], rfl, by simp⟩

theorem trans {s t rest : List Char} (first : Eats s t) (second : Eats t rest) : Eats s rest := by
  obtain ⟨p, rfl, cleanP⟩ := first
  obtain ⟨q, rfl, cleanQ⟩ := second
  exact ⟨p ++ q, (List.append_assoc ..).symm, by simp [cleanP, cleanQ]⟩

theorem cons {c : Char} {s rest : List Char} (clean : c ≠ '\r') (eats : Eats s rest) :
    Eats (c :: s) rest := by
  obtain ⟨p, rfl, cleanP⟩ := eats
  exact ⟨c :: p, rfl, by simp [cleanP, clean.symm]⟩

theorem clean {s : List Char} (eats : Eats s []) : '\r' ∉ s := by
  obtain ⟨p, rfl, cleanP⟩ := eats
  simpa using cleanP

theorem takeWhile {p : Char → Bool} (clean : p '\r' = false) (s : List Char) :
    Eats s (s.dropWhile p) := by
  refine ⟨s.takeWhile p, List.takeWhile_append_dropWhile.symm, fun member => ?_⟩
  have := List.mem_takeWhile_imp member
  rw [clean] at this
  cases this

end Eats

/-- The piece that was read is what was there before the rest. -/
theorem consumed_append (piece rest : List Char) : consumed (piece ++ rest) rest = piece := by
  simp [consumed]

/-- Characters that pass a test are all that is taken by it before a text that starts with none. -/
theorem span_append {p : Char → Bool} {s rest : List Char} (all : ∀ c ∈ s, p c = true)
    (stop : ∀ c ∈ rest.head?, p c = false) :
    (s ++ rest).takeWhile p = s ∧ (s ++ rest).dropWhile p = rest := by
  rw [List.takeWhile_append_of_pos all, List.dropWhile_append_of_pos all]
  cases rest with
  | nil => simp
  | cons c rest =>
    have := stop c rfl
    simp [this]

/-- What is left after the characters that pass a test starts with none of them. -/
theorem head?_dropWhile (p : Char → Bool) (s : List Char) :
    ∀ c ∈ (s.dropWhile p).head?, p c = false := by
  intro c member
  have := List.head?_dropWhile_not p s
  rw [Option.mem_def.mp member] at this
  simpa using this

/-- Whether a text is read as `x` where it stands before a text that stops the reader. -/
def Yields {α : Type} (read : List Char → Option (α × List Char)) (stop : List Char → Prop)
    (piece : List Char) (x : α) : Prop :=
  ∀ rest, stop rest → read (piece ++ rest) = some (x, rest)

/-! ### Blanks, newlines and comments -/

/-- Whether a character belongs to blanks, newlines and comments when it comes after them. -/
def startsTrivia (c : Char) : Bool :=
  c = '\n' || isBlank c || c = '#'

/-- Whether a text is made of blanks, newlines and comments that end before it does. -/
def isTrivia : Bool → List Char → Bool
  | inComment, [] => !inComment
  | inComment, c :: rest =>
    if c = '\n' then isTrivia false rest
    else if inComment then !isControl c && isTrivia true rest
    else if isBlank c then isTrivia false rest
    else c = '#' && isTrivia true rest

/-- Whether all of a text is blank. -/
def Blank (s : List Char) : Prop :=
  ∀ c ∈ s, isBlank c = true

/-- What can stand at the end of a line, without its newline. -/
def LineEnd (s : List Char) : Prop :=
  ∃ blanks comment, s = blanks ++ comment ∧ Blank blanks ∧ (∀ c ∈ comment, isControl c = false) ∧
    ∀ c ∈ comment.head?, c = '#'

theorem isBlank_cr : isBlank '\r' = false := by decide

theorem isControl_newline : isControl '\n' = true := by decide

theorem Blank.nil : Blank [] := nofun

theorem blank_takeWhile (s : List Char) : Blank (s.takeWhile isBlank) :=
  fun _ member => List.mem_takeWhile_imp member

theorem LineEnd.nil : LineEnd [] :=
  ⟨[], [], rfl, .nil, nofun, nofun⟩

/-- Blanks before a text that starts with none are all that is taken as blanks. -/
theorem Blank.span {s rest : List Char} (blank : Blank s)
    (stop : ∀ c ∈ rest.head?, isBlank c = false) :
    (s ++ rest).takeWhile isBlank = s ∧ (s ++ rest).dropWhile isBlank = rest :=
  span_append blank stop

theorem ne_of_isBlank {c d : Char} (blank : isBlank c = true) (other : isBlank d = false) :
    c ≠ d := by
  rintro rfl
  rw [blank] at other
  cases other

/-- A comment that ends before the text does ends with a newline. -/
theorem newline_mem_of_comment {s : List Char} (trivial : isTrivia true s = true) : '\n' ∈ s := by
  induction s with
  | nil => cases trivial
  | cons c s ih =>
    rw [isTrivia] at trivial
    split at trivial
    · next newline => exact List.mem_cons.mpr (Or.inl newline.symm)
    · rw [if_pos rfl, Bool.and_eq_true] at trivial
      exact List.mem_cons_of_mem _ (ih trivial.2)

/-- Where there is no newline, there are only blanks. -/
theorem blank_of_isTrivia {s : List Char} (trivial : isTrivia false s = true) (flat : '\n' ∉ s) :
    Blank s := by
  induction s with
  | nil => exact .nil
  | cons c s ih =>
    rw [List.mem_cons, not_or] at flat
    rw [isTrivia, if_neg (Ne.symm flat.1), if_neg (by decide)] at trivial
    split at trivial
    · next blank => exact List.forall_mem_cons.mpr ⟨blank, ih trivial flat.2⟩
    · rw [Bool.and_eq_true] at trivial
      exact absurd (newline_mem_of_comment trivial.2) flat.2

/-- Blanks after blanks, newlines and comments go on with them. -/
theorem isTrivia_append {inComment : Bool} {s t : List Char} (first : isTrivia inComment s = true)
    (second : isTrivia false t = true) : isTrivia inComment (s ++ t) = true := by
  induction s generalizing inComment with
  | nil =>
    cases inComment with
    | true => cases first
    | false => exact second
  | cons c s ih =>
    simp only [List.cons_append, isTrivia] at first ⊢
    split
    · next newline =>
      rw [if_pos newline] at first
      exact ih first
    · next newline =>
      rw [if_neg newline] at first
      cases inComment with
      | true =>
        simp only [if_true, Bool.and_eq_true] at first ⊢
        exact ⟨first.1, ih first.2⟩
      | false =>
        simp only [Bool.false_eq_true, if_false] at first ⊢
        split
        · next blank =>
          rw [if_pos blank] at first
          exact ih first
        · next blank =>
          rw [if_neg blank] at first
          simp only [Bool.and_eq_true] at first ⊢
          exact ⟨first.1, ih first.2⟩

theorem Blank.isTrivia {s : List Char} (blank : Blank s) : isTrivia false s = true := by
  induction s with
  | nil => rfl
  | cons c s ih =>
    have first := blank c List.mem_cons_self
    have rest := ih fun d member => blank d (List.mem_cons_of_mem c member)
    simp [Toml.isTrivia, first, rest]

/-- Blanks, newlines and comments are read up to the first character that is none of them. -/
theorem readTrivia_append {inComment : Bool} {trivia : List Char}
    (trivial : isTrivia inComment trivia = true) {rest : List Char}
    (stop : ∀ c ∈ rest.head?, startsTrivia c = false) :
    readTrivia inComment (trivia ++ rest) = some (trivia, rest) := by
  induction trivia generalizing inComment with
  | nil =>
    cases inComment with
    | true => cases trivial
    | false =>
      cases rest with
      | nil => rfl
      | cons c rest =>
        have := stop c rfl
        simp only [startsTrivia, Bool.or_eq_false_iff, decide_eq_false_iff_not] at this
        simp [readTrivia, this]
  | cons c trivia ih =>
    simp only [List.cons_append, isTrivia, readTrivia] at trivial ⊢
    split
    · next newline =>
      rw [if_pos newline] at trivial
      rw [ih trivial, Option.map_some]
    · next newline =>
      rw [if_neg newline] at trivial
      cases inComment with
      | true =>
        simp only [if_true, Bool.and_eq_true, Bool.not_eq_true'] at trivial ⊢
        rw [if_neg (by simp [trivial.1]), ih trivial.2, Option.map_some]
      | false =>
        simp only [Bool.false_eq_true, if_false] at trivial ⊢
        split
        · next blank =>
          rw [if_pos blank] at trivial
          rw [ih trivial, Option.map_some]
        · next blank =>
          rw [if_neg blank] at trivial
          simp only [Bool.and_eq_true, decide_eq_true_eq] at trivial
          rw [if_pos trivial.1, ih trivial.2, Option.map_some]

/-- What was read as blanks, newlines and comments, and what comes after it. Only at the end of a
text can a comment be open. -/
theorem readTrivia_some {inComment : Bool} {s trivia rest : List Char}
    (read : readTrivia inComment s = some (trivia, rest)) :
    s = trivia ++ rest ∧ '\r' ∉ trivia ∧ (rest ≠ [] → isTrivia inComment trivia = true) ∧
      ∀ c ∈ rest.head?, startsTrivia c = false := by
  induction s generalizing inComment trivia with
  | nil =>
    cases read
    exact ⟨rfl, by simp, fun h => absurd rfl h, by simp⟩
  | cons c s ih =>
    -- Whatever the character is, it comes before what is read after it.
    have step : ∀ after, (readTrivia after s).map (fun found => (c :: found.1, found.2)) =
        some (trivia, rest) → c ≠ '\r' →
        ∃ t, trivia = c :: t ∧ s = t ++ rest ∧ '\r' ∉ trivia ∧
          (rest ≠ [] → isTrivia after t = true) ∧ ∀ c ∈ rest.head?, startsTrivia c = false := by
      intro after read clean
      obtain ⟨⟨t, left⟩, readRest, equal⟩ := Option.map_eq_some_iff.mp read
      cases equal
      obtain ⟨split, cleanT, trivial, stop⟩ := ih readRest
      exact ⟨t, rfl, split, by simp [clean.symm, cleanT], trivial, stop⟩
    rw [readTrivia] at read
    split at read
    · next newline =>
      obtain ⟨t, rfl, rfl, clean, trivial, stop⟩ := step false read (by simp [newline])
      exact ⟨rfl, clean, fun more => by simp [isTrivia, newline, trivial more], stop⟩
    · next newline =>
      cases inComment with
      | true =>
        simp only [if_true] at read
        split at read
        · cases read
        · next control =>
          obtain ⟨t, rfl, rfl, clean, trivial, stop⟩ :=
            step true read (by rintro rfl; exact control (by decide))
          refine ⟨rfl, clean, fun more => ?_, stop⟩
          simp [isTrivia, newline, control, trivial more]
      | false =>
        simp only [Bool.false_eq_true, if_false] at read
        split at read
        · next blank =>
          obtain ⟨t, rfl, rfl, clean, trivial, stop⟩ :=
            step false read (ne_of_isBlank blank isBlank_cr)
          exact ⟨rfl, clean, fun more => by simp [isTrivia, newline, blank, trivial more], stop⟩
        · next blank =>
          split at read
          · next hash =>
            obtain ⟨t, rfl, rfl, clean, trivial, stop⟩ := step true read (by simp [hash])
            refine ⟨rfl, clean, fun more => ?_, stop⟩
            subst hash
            simp [isTrivia, trivial more, show isBlank '#' = false by decide]
          · next hash =>
            cases read
            exact ⟨rfl, by simp, fun _ => rfl, by simp [startsTrivia, newline, blank, hash]⟩

theorem eats_readTrivia {inComment : Bool} {s trivia rest : List Char}
    (read : readTrivia inComment s = some (trivia, rest)) : Eats s rest :=
  ⟨trivia, (readTrivia_some read).1, (readTrivia_some read).2.1⟩

/-- The end of a line is read up to its newline. -/
theorem readLineEnd_append {s : List Char} (ends : LineEnd s) (rest : List Char) :
    readLineEnd (s ++ '\n' :: rest) = some (s, rest) := by
  obtain ⟨blanks, comment, rfl, blank, plain, hash⟩ := ends
  have stop : ∀ c ∈ (comment ++ '\n' :: rest).head?, isBlank c = false := by
    cases comment with
    | nil => simp; decide
    | cons c comment =>
      have := hash c rfl
      subst this
      simp; decide
  obtain ⟨taken, left⟩ := blank.span stop
  have noNewline : ∀ c ∈ comment, (decide (c ≠ '\n')) = true := by
    intro c member
    simp only [ne_eq, decide_not, Bool.not_eq_eq_eq_not, Bool.not_true, decide_eq_false_iff_not]
    rintro rfl
    have := plain _ member
    rw [isControl_newline] at this
    cases this
  have comments : (if (comment ++ '\n' :: rest).head? = some '#' then
      (comment ++ '\n' :: rest).takeWhile (fun c => decide (c ≠ '\n')) else []) = comment := by
    cases comment with
    | nil => simp
    | cons c comment =>
      have := hash c rfl
      subst this
      rw [if_pos (by simp), List.takeWhile_append_of_pos noNewline]
      simp
  have clean : comment.any isControl = false := by
    simpa using plain
  rw [List.append_assoc, readLineEnd, taken, left]
  simp only [comments, clean, Bool.false_eq_true, if_false, List.drop_left, if_true]

/-- What was read as the end of a line. -/
theorem readLineEnd_some {s after rest : List Char} (read : readLineEnd s = some (after, rest)) :
    LineEnd after ∧ Eats s rest := by
  rw [readLineEnd] at read
  set blanks := s.takeWhile isBlank with blanksDef
  set left := s.dropWhile isBlank with leftDef
  set comment := if left.head? = some '#' then left.takeWhile (fun c => decide (c ≠ '\n')) else []
    with commentDef
  have whole : s = blanks ++ left := List.takeWhile_append_dropWhile.symm
  have isPrefix : comment ++ left.drop comment.length = left := by
    rw [commentDef]
    split
    · exact List.prefix_iff_eq_append.mp (List.takeWhile_prefix _)
    · rfl
  have hash : ∀ c ∈ comment.head?, c = '#' := by
    rw [commentDef]
    split
    · next starts =>
      cases found : left with
      | nil => simp
      | cons d left =>
        rw [found] at starts
        cases starts
        simp
    · nofun
  split at read
  · cases read
  · next clean =>
    simp only [Bool.not_eq_true, List.any_eq_false] at clean
    have ends : LineEnd (blanks ++ comment) :=
      ⟨blanks, comment, rfl, blank_takeWhile s, by simpa using clean, hash⟩
    have noReturn : '\r' ∉ blanks ++ comment := by
      intro member
      rcases List.mem_append.mp member with member | member
      · exact absurd (blank_takeWhile s _ member) (by decide)
      · exact absurd (clean _ member) (by decide)
    split at read
    · next finished =>
      cases read
      rw [finished, List.append_nil] at isPrefix
      exact ⟨ends, blanks ++ comment, by rw [List.append_nil, isPrefix, ← whole], noReturn⟩
    · next c more later =>
      split at read
      · next newline =>
        cases read
        subst newline
        refine ⟨ends, blanks ++ comment ++ ['\n'], ?_, by simpa using noReturn⟩
        rw [later] at isPrefix
        rw [whole, ← isPrefix]
        simp
      · cases read

end StyleMonitor.Toml
