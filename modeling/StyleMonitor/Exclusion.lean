import StyleMonitor.Exclusion.Pattern
import StyleMonitor.Text.Lines

/-!
Exclusions: the patterns of an ignore file. A path is excluded when any of them matches it.
-/

namespace StyleMonitor

/-- The patterns of an ignore file, in its order (`ExclusionMatcher`). -/
structure Exclusions where
  patterns : List Exclusion.Pattern := []
  deriving DecidableEq, Repr

namespace Exclusions

/-- Excludes nothing. -/
def empty : Exclusions := {}

/-- The patterns of some lines (`ExclusionMatcher::from_lines`). -/
def ofLines (lines : List String) : Exclusions :=
  ⟨lines.filterMap fun line => Exclusion.Pattern.ofLine? line.toList⟩

/-- The patterns of the text of an ignore file. -/
def ofText (text : String) : Exclusions :=
  ofLines (Text.linesOf text)

/-- The number of patterns. -/
def length (exclusions : Exclusions) : Nat :=
  exclusions.patterns.length

/-- The first pattern that matches a path, as it was written (`ExclusionMatcher::matching_pattern`).
-/
def matching? (exclusions : Exclusions) (path : String) : Option String :=
  (exclusions.patterns.find? fun pattern => pattern.isMatch path.toList).map (·.source)

/-- Whether a path is excluded (`ExclusionMatcher::is_excluded`). -/
def excludes (exclusions : Exclusions) (path : String) : Bool :=
  exclusions.patterns.any fun pattern => pattern.isMatch path.toList

/-- A path is excluded exactly when some pattern can be named that matches it. -/
theorem matching?_isSome (exclusions : Exclusions) (path : String) :
    (exclusions.matching? path).isSome = exclusions.excludes path := by
  rw [Bool.eq_iff_iff]
  simp [matching?, excludes]

end Exclusions

end StyleMonitor
