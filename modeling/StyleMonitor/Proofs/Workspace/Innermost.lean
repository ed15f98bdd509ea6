import StyleMonitor.Proofs.Path
import StyleMonitor.Workspace

/-!
# The innermost root

Of the roots that hold a path, the one with the most components is taken, the last of several. All
of them begin the same path, so the shorter begins the longer: the root that is taken lies within
all the others, and only its spelling depends on the order in which the roots are given.
-/

namespace StyleMonitor

namespace Workspace

variable {workspace : Workspace} {current : Option String} {trigger path root : String}
  {holdsSources : String → Bool}

/-! ### The deepest of some roots -/

theorem mem_of_deeper {roots : List String} {first : Option String}
    (found : roots.foldl deeper first = some root) : first = some root ∨ root ∈ roots := by
  induction roots generalizing first with
  | nil => exact Or.inl found
  | cons other rest ih =>
    rcases ih found with chosen | later
    · cases first with
      | none => exact Or.inr (by simpa [deeper] using Or.inl (Option.some.inj chosen).symm)
      | some first =>
        simp only [deeper] at chosen
        split at chosen
        · exact Or.inl chosen
        · exact Or.inr (by simpa using Or.inl (Option.some.inj chosen).symm)
    · exact Or.inr (List.mem_cons_of_mem _ later)

/-- A root that is taken once is only given up for one that is as deep. -/
theorem deeper_some (first second : String) :
    ∃ root, deeper (some first) second = some root ∧
      (Path.components first).length ≤ (Path.components root).length ∧
      (Path.components second).length ≤ (Path.components root).length := by
  simp only [deeper]
  split
  · next shorter => exact ⟨first, rfl, Nat.le_refl _, Nat.le_of_lt shorter⟩
  · next longer => exact ⟨second, rfl, Nat.le_of_not_lt longer, Nat.le_refl _⟩

/-- The root that is taken in the end is as deep as the first one and all the others. -/
theorem foldl_deeper_some (roots : List String) (first : String) :
    ∃ root, roots.foldl deeper (some first) = some root ∧
      ∀ other ∈ first :: roots,
        (Path.components other).length ≤ (Path.components root).length := by
  induction roots generalizing first with
  | nil => exact ⟨first, rfl, by simp⟩
  | cons second rest ih =>
    obtain ⟨better, taken, first_le, second_le⟩ := deeper_some first second
    obtain ⟨root, found, deepest⟩ := ih better
    have better_le := deepest better List.mem_cons_self
    refine ⟨root, by rw [List.foldl_cons, taken, found], ?_⟩
    intro other member
    rcases List.mem_cons.mp member with rfl | later
    · exact first_le.trans better_le
    · rcases List.mem_cons.mp later with rfl | last
      · exact second_le.trans better_le
      · exact deepest other (List.mem_cons_of_mem _ last)

theorem foldl_deeper_eq_none {roots : List String} :
    roots.foldl deeper none = none ↔ roots = [] := by
  cases roots with
  | nil => exact iff_of_true rfl rfl
  | cons first rest =>
    obtain ⟨root, found, -⟩ := foldl_deeper_some rest first
    have taken : (first :: rest).foldl deeper none = some root := found
    exact iff_of_false (by simp [taken]) (List.cons_ne_nil _ _)

theorem length_le_of_deeper {roots : List String} (found : roots.foldl deeper none = some root) :
    ∀ other ∈ roots, (Path.components other).length ≤ (Path.components root).length := by
  cases roots with
  | nil => exact fun _ none => absurd none List.not_mem_nil
  | cons first rest =>
    obtain ⟨deepest, same, longest⟩ := foldl_deeper_some rest first
    cases (show some deepest = some root from same.symm.trans found)
    exact longest

/-! ### The root of a path -/

theorem rootOf?_eq_none :
    workspace.rootOf? path = none ↔ ∀ root ∈ workspace.roots, ¬ Path.isWithin path root := by
  rw [rootOf?, foldl_deeper_eq_none, List.filter_eq_nil_iff]

/-- Two paths that one path lies within lie within one another. -/
theorem isWithin_of_le {outer : String} (holds : Path.isWithin path root = true)
    (outside : Path.isWithin path outer = true)
    (shorter : (Path.components outer).length ≤ (Path.components root).length) :
    Path.isWithin root outer = true := by
  rw [Path.isWithin, List.isPrefixOf_iff_prefix] at holds outside ⊢
  exact List.prefix_of_prefix_length_le outside holds shorter

/-- The root of a path holds it, and lies within all the others that do. -/
theorem rootOf?_eq_some (found : workspace.rootOf? path = some root) :
    root ∈ workspace.roots ∧ Path.isWithin path root = true ∧
      ∀ other ∈ workspace.roots, Path.isWithin path other = true →
        Path.isWithin root other = true := by
  have among := (mem_of_deeper found).resolve_left nofun
  obtain ⟨member, holds⟩ := List.mem_filter.mp among
  refine ⟨member, holds, ?_⟩
  intro other there outside
  exact isWithin_of_le holds outside
    (length_le_of_deeper found other (List.mem_filter.mpr ⟨there, outside⟩))

theorem rootOf?_of_resolve (resolved : workspace.resolve current holdsSources trigger = .ok root) :
    workspace.rootOf? (Path.absolute current trigger) = some root := by
  unfold resolve at resolved
  split at resolved
  · cases resolved
  dsimp only at resolved
  split at resolved
  · cases resolved
  next found =>
  split at resolved
  · cases resolved
  cases resolved
  exact found

/-- A changed file belongs to a root of the workspace. -/
theorem mem_of_resolve (resolved : workspace.resolve current holdsSources trigger = .ok root) :
    root ∈ workspace.roots :=
  (rootOf?_eq_some (rootOf?_of_resolve resolved)).1

/-! ### Banned extensions -/

theorem normalExtension_eq {entry : String} {dots stem : List Char}
    (split : entry.toList = dots ++ stem) (only : ∀ c ∈ dots, c = '.')
    (starts : stem.head? ≠ some '.') : normalExtension entry = lowerCase (String.ofList stem) := by
  have back : stem.dropWhile (· = '.') = stem := by
    cases stem with
    | nil => rfl
    | cons c rest =>
      have apart : c ≠ '.' := by simpa using starts
      simp [apart]
  rw [normalExtension, split, List.dropWhile_append_of_pos (by simpa using only), back]

/-- An entry of a list of banned extensions bans an extension: without its dots in front, both in
lower case are the same. -/
def Bans (entry extension : String) : Prop :=
  ∃ dots stem, entry.toList = dots ++ stem ∧ (∀ c ∈ dots, c = '.') ∧ stem.head? ≠ some '.' ∧
    lowerCase (String.ofList stem) = lowerCase extension

theorem bans_iff {entry extension : String} :
    Bans entry extension ↔ normalExtension entry = lowerCase extension := by
  constructor
  · rintro ⟨dots, stem, split, only, starts, same⟩
    rw [normalExtension_eq split only starts, same]
  · intro same
    have split := List.takeWhile_append_dropWhile (p := (· = '.')) (l := entry.toList)
    refine ⟨_, _, split.symm, ?_, ?_, same⟩
    · intro c member
      simpa using (List.all_eq_true.mp List.all_takeWhile) c member
    · intro dot
      have first := List.head?_dropWhile_not (fun c : Char => decide (c = '.')) entry.toList
      rw [dot] at first
      simp at first

/-- A changed file has an extension that is banned. -/
def IsBanned (banned : List String) (path extension : String) : Prop :=
  Path.extension? path = some extension ∧ ∃ entry ∈ banned, Bans entry extension

theorem bannedExtension?_eq_some {shown : String} :
    workspace.bannedExtension? path = some shown ↔
      ∃ extension, Path.extension? path = some extension ∧
        lowerCase extension ∈ workspace.banned ∧ shown = lowerCase extension := by
  rw [bannedExtension?, Option.bind_eq_some_iff]
  refine exists_congr fun extension => and_congr_right fun _ => ?_
  split
  · next member => simp [member, eq_comm]
  · next none => simp [none]

theorem bannedExtension?_make {roots banned : List String} {requireSources : Bool}
    {shown : String} :
    (make current roots banned requireSources).bannedExtension? path = some shown ↔
      ∃ extension, IsBanned banned path extension ∧ shown = lowerCase extension := by
  simp only [bannedExtension?_eq_some, make, List.mem_map, IsBanned, bans_iff, and_assoc]

theorem bannedExtension?_make_eq_none {roots banned : List String} {requireSources : Bool} :
    (make current roots banned requireSources).bannedExtension? path = none ↔
      ∀ extension, ¬ IsBanned banned path extension := by
  rw [Option.eq_none_iff_forall_ne_some]
  simp only [ne_eq, bannedExtension?_make]
  constructor
  · exact fun none extension has => none _ ⟨extension, has, rfl⟩
  · rintro none shown ⟨extension, has, -⟩
    exact none extension has

/-! ### Answers -/

/-- A root is the innermost one that holds a path: it is one of those that are given, as an absolute
path, it holds the path, and it lies within every other one that does. -/
structure Innermost (current : Option String) (roots : List String) (path root : String) : Prop where
  given : ∃ written ∈ roots, root = Path.absolute current written
  holds : Path.components root <+: Path.components path
  within : ∀ other ∈ roots,
    Path.components (Path.absolute current other) <+: Path.components path →
      Path.components (Path.absolute current other) <+: Path.components root

/-- Two innermost roots are spellings of one path, in whatever order the roots are given. -/
theorem Innermost.same {roots others : List String} {other : String}
    (one : Innermost current roots path root) (two : Innermost current others path other)
    (order : roots.Perm others) : Path.same root other = true := by
  obtain ⟨written, member, rfl⟩ := one.given
  obtain ⟨spelled, there, rfl⟩ := two.given
  have forth := two.within written (order.mem_iff.mp member) one.holds
  have back := one.within spelled (order.mem_iff.mpr there) two.holds
  exact Path.same_iff.mpr (forth.eq_of_length_le back.length_le)

/-- The answers to one trigger are the same: the same refusal, or spellings of one root. -/
inductive SameAnswer : Except TargetFault String → Except TargetFault String → Prop where
  | root {root other : String} (same : Path.same root other = true) :
      SameAnswer (.ok root) (.ok other)
  | fault (fault : TargetFault) : SameAnswer (.error fault) (.error fault)

section

variable {roots banned : List String} {requireSources : Bool}

theorem resolve_of_isBanned {extension : String} (has : IsBanned banned trigger extension) :
    (make current roots banned requireSources).resolve current holdsSources trigger =
      .error (.bannedExtension trigger (lowerCase extension)) := by
  rw [resolve, bannedExtension?_make.mpr ⟨extension, has, rfl⟩]

/-- No root that is given, as an absolute path, holds a path. -/
def Outside (current : Option String) (roots : List String) (path : String) : Prop :=
  ∀ written ∈ roots, ¬ Path.components (Path.absolute current written) <+: Path.components path

theorem resolve_of_outside (free : ∀ extension, ¬ IsBanned banned trigger extension)
    (none : Outside current roots (Path.absolute current trigger)) :
    (make current roots banned requireSources).resolve current holdsSources trigger =
      .error (.outsideWorkspace (Path.absolute current trigger)) := by
  have unheld : (make current roots banned requireSources).rootOf?
      (Path.absolute current trigger) = Option.none := by
    rw [rootOf?_eq_none]
    intro root member holds
    obtain ⟨written, there, rfl⟩ := List.mem_map.mp member
    exact none written there (List.isPrefixOf_iff_prefix.mp holds)
  simp only [resolve, bannedExtension?_make_eq_none.mpr free, unheld]

/-- A file that is not banned and lies in some root belongs to the innermost one. -/
theorem resolve_of_held (requireSources : Bool) (holdsSources : String → Bool)
    (free : ∀ extension, ¬ IsBanned banned trigger extension)
    (held : ¬ Outside current roots (Path.absolute current trigger)) :
    ∃ root, Innermost current roots (Path.absolute current trigger) root ∧
      (make current roots banned requireSources).resolve current holdsSources trigger =
        if requireSources ∧ ¬ holdsSources root then .error (.noSources root) else .ok root := by
  cases found : (make current roots banned requireSources).rootOf?
      (Path.absolute current trigger) with
  | none =>
    refine absurd ?_ held
    intro written member holds
    exact rootOf?_eq_none.mp found _ (List.mem_map_of_mem member)
      (List.isPrefixOf_iff_prefix.mpr holds)
  | some root =>
    obtain ⟨member, holds, inner⟩ := rootOf?_eq_some found
    obtain ⟨written, there, same⟩ := List.mem_map.mp member
    refine ⟨root, ⟨⟨written, there, same.symm⟩, List.isPrefixOf_iff_prefix.mp holds, ?_⟩, ?_⟩
    · intro other given outside
      exact List.isPrefixOf_iff_prefix.mp (inner _ (List.mem_map_of_mem given)
        (List.isPrefixOf_iff_prefix.mpr outside))
    · simp only [resolve, bannedExtension?_make_eq_none.mpr free, found]
      rfl

theorem resolve_eq_banned_iff {path shown : String} :
    (make current roots banned requireSources).resolve current holdsSources trigger =
        .error (.bannedExtension path shown) ↔
      path = trigger ∧ ∃ extension, IsBanned banned trigger extension ∧
        shown = lowerCase extension := by
  constructor
  · intro refused
    by_cases has : ∃ extension, IsBanned banned trigger extension
    · obtain ⟨extension, has⟩ := has
      cases (resolve_of_isBanned has).symm.trans refused
      exact ⟨rfl, extension, has, rfl⟩
    · have free := not_exists.mp has
      by_cases none : Outside current roots (Path.absolute current trigger)
      · cases (resolve_of_outside free none).symm.trans refused
      · obtain ⟨root, -, answer⟩ := resolve_of_held requireSources holdsSources free none
        rw [answer] at refused
        split at refused <;> cases refused
  · rintro ⟨rfl, extension, has, rfl⟩
    exact resolve_of_isBanned has

theorem resolve_eq_outside_iff {path : String} :
    (make current roots banned requireSources).resolve current holdsSources trigger =
        .error (.outsideWorkspace path) ↔
      (∀ extension, ¬ IsBanned banned trigger extension) ∧
        Outside current roots (Path.absolute current trigger) ∧
        path = Path.absolute current trigger := by
  constructor
  · intro refused
    have free : ∀ extension, ¬ IsBanned banned trigger extension := by
      intro extension has
      cases (resolve_of_isBanned has).symm.trans refused
    by_cases none : Outside current roots (Path.absolute current trigger)
    · cases (resolve_of_outside free none).symm.trans refused
      exact ⟨free, none, rfl⟩
    · obtain ⟨root, -, answer⟩ := resolve_of_held requireSources holdsSources free none
      rw [answer] at refused
      split at refused <;> cases refused
  · rintro ⟨free, none, rfl⟩
    exact resolve_of_outside free none

theorem SameAnswer.of_eq {answer other : Except TargetFault String} (same : answer = other) :
    SameAnswer answer other := by
  subst same
  cases answer with
  | ok root => exact .root (Path.same_refl root)
  | error fault => exact .fault fault

/-- The order of the roots does not count, when they need not hold sources. -/
theorem resolve_perm {others : List String} (order : roots.Perm others) :
    SameAnswer ((make current roots banned false).resolve current holdsSources trigger)
      ((make current others banned false).resolve current holdsSources trigger) := by
  by_cases has : ∃ extension, IsBanned banned trigger extension
  · obtain ⟨extension, has⟩ := has
    exact .of_eq ((resolve_of_isBanned has).trans (resolve_of_isBanned has).symm)
  have free := not_exists.mp has
  have outside_iff : Outside current roots (Path.absolute current trigger) ↔
      Outside current others (Path.absolute current trigger) :=
    forall_congr' fun written => imp_congr_left order.mem_iff
  by_cases none : Outside current roots (Path.absolute current trigger)
  · exact .of_eq ((resolve_of_outside free none).trans
      (resolve_of_outside free (outside_iff.mp none)).symm)
  · obtain ⟨root, inner, answer⟩ := resolve_of_held false holdsSources free none
    obtain ⟨other, also, reply⟩ := resolve_of_held false holdsSources free (mt outside_iff.mpr none)
    rw [answer, reply]
    exact .root (inner.same also order)

/-- The answer to a trigger. A banned extension refuses it, and then that no root holds it;
otherwise it belongs to the innermost root. In another order of the roots that only changes how the
root is spelled, as long as it need not hold sources. -/
theorem resolve_innermost (current : Option String) (roots banned : List String) (requireSources : Bool)
    (holdsSources : String → Bool) (trigger : String) :
    (∀ path shown, (make current roots banned requireSources).resolve current holdsSources trigger =
        .error (.bannedExtension path shown) ↔
      path = trigger ∧ ∃ extension, IsBanned banned trigger extension ∧
        shown = lowerCase extension) ∧
    (∀ path, (make current roots banned requireSources).resolve current holdsSources trigger =
        .error (.outsideWorkspace path) ↔
      (∀ extension, ¬ IsBanned banned trigger extension) ∧
        Outside current roots (Path.absolute current trigger) ∧
        path = Path.absolute current trigger) ∧
    ((∀ extension, ¬ IsBanned banned trigger extension) →
      ¬ Outside current roots (Path.absolute current trigger) →
      ∃ root, Innermost current roots (Path.absolute current trigger) root ∧
        (make current roots banned requireSources).resolve current holdsSources trigger =
          if requireSources ∧ ¬ holdsSources root then .error (.noSources root) else .ok root) ∧
    (requireSources = false → ∀ others : List String, roots.Perm others →
      SameAnswer
        ((make current roots banned requireSources).resolve current holdsSources trigger)
        ((make current others banned requireSources).resolve current holdsSources trigger)) := by
  refine ⟨fun _ _ => resolve_eq_banned_iff, fun _ => resolve_eq_outside_iff, ?_, ?_⟩
  · intro free held
    exact resolve_of_held requireSources holdsSources free held
  · rintro rfl others order
    exact resolve_perm order

/-- Roots that are nested and spelled in two ways: the innermost one is taken in both orders. A file
whose extension is banned, though in another case and with dots in front, is refused before it is
found to be in no root. -/
theorem resolve_innermost_nested :
    let roots := ["/w", "b/./", "/w//b", "/w/bc"]
    let banned := ["..O", ".Md"]
    let answer (roots : List String) (trigger : String) :=
      (make "/w" roots banned false).resolve "/w" (fun _ => false) trigger
    (∃ root, Innermost "/w" roots (Path.absolute "/w" "b/x.C") root ∧
      answer roots "b/x.C" = .ok root) ∧
    SameAnswer (answer roots "b/x.C") (answer roots.reverse "b/x.C") ∧
    answer roots "/v/README.MD" = .error (.bannedExtension "/v/README.MD" "md") ∧
    answer roots "b/x.o" = .error (.bannedExtension "b/x.o" "o") ∧
    answer roots "/wb/x.C" = .error (.outsideWorkspace "/wb/x.C") := by
  intro roots banned answer
  have main := resolve_innermost "/w" roots banned false (fun _ => false)
  have free (trigger : String) (own : Path.extension? trigger = some "C") (extension : String) :
      ¬ IsBanned banned trigger extension := by
    rintro ⟨known, entry, member, bans⟩
    cases own.symm.trans known
    rw [bans_iff] at bans
    revert bans
    exact (show ∀ entry ∈ banned, normalExtension entry ≠ lowerCase "C" by decide +kernel) entry
      member
  have held : ¬ Outside "/w" roots (Path.absolute "/w" "b/x.C") :=
    fun outside => outside "/w" List.mem_cons_self
      (List.isPrefixOf_iff_prefix.mp (by decide +kernel))
  have outside : Outside "/w" roots (Path.absolute "/w" "/wb/x.C") := by
    intro written member holds
    refine absurd (List.isPrefixOf_iff_prefix.mpr holds) ?_
    revert written
    decide +kernel
  obtain ⟨-, -, innermost, permuted⟩ := main "b/x.C"
  obtain ⟨root, inner, found⟩ := innermost (free _ (by decide +kernel)) held
  rw [if_neg (by simp)] at found
  refine ⟨⟨root, inner, found⟩, permuted rfl _ roots.reverse_perm.symm, ?_, ?_, ?_⟩
  · exact ((main "/v/README.MD").1 _ _).mpr ⟨rfl, "MD", ⟨by decide +kernel, ".Md", by simp [banned],
      bans_iff.mpr (by decide +kernel)⟩, by decide +kernel⟩
  · exact ((main "b/x.o").1 _ _).mpr ⟨rfl, "o", ⟨by decide +kernel, "..O", by simp [banned],
      bans_iff.mpr (by decide +kernel)⟩, by decide +kernel⟩
  · exact ((main "/wb/x.C").2.1 _).mpr ⟨free _ (by decide +kernel), outside, by decide +kernel⟩

end

end Workspace

end StyleMonitor
