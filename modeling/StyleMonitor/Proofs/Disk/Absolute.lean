import StyleMonitor.Proofs.Disk.Removal
import StyleMonitor.Proofs.Path.Relative

/-!
# Paths made absolute

A path that is made absolute leads where it led, as long as the current directory is spelled as a
path can spell it. So a file that can be read by the absolute form of its directory can be removed
by the directory as it was given, unless that spelling is too long; and when it was removed it can
no longer be read.
-/

namespace StyleMonitor

namespace Path

/-- A path that is looked up from a base is as absolute as that. -/
theorem isAbsolute_join {base tail : String} (named : base ≠ "")
    (relative : isAbsolute tail = false) : isAbsolute (join base tail) = isAbsolute base := by
  have some : base.toList ≠ [] := by simpa using named
  have front (rest : String) : isAbsolute (base ++ rest) = isAbsolute base := by
    rw [isAbsolute, isAbsolute, String.toList_append, List.head?_append_of_ne_nil _ some]
  unfold join
  rw [if_neg (by simp [relative])]
  split
  · exact front tail
  · rw [String.append_assoc]
    exact front _

theorem isAbsolute_join_of_base {base : String} (rooted : isAbsolute base = true)
    (tail : String) : isAbsolute (join base tail) = true := by
  cases absolute : isAbsolute tail with
  | true => rw [join_of_isAbsolute absolute, absolute]
  | false =>
    rw [isAbsolute_join _ absolute, rooted]
    rintro rfl
    cases rooted

theorem isAbsolute_foldl_join {start : String} (rooted : isAbsolute start = true)
    (parts : List Component) :
    isAbsolute (parts.foldl (fun base part => join base part.text) start) = true := by
  induction parts generalizing start with
  | nil => exact rooted
  | cons part rest ih => exact ih (isAbsolute_join_of_base rooted _)

/-- From a directory every path but the empty one can be made absolute. -/
theorem absolute_eq (current : String) {path : String} (named : path ≠ "") :
    absolute current path =
      let start := if isAbsolute path then
          if "//".toList.isPrefixOf path.toList ∧ ¬ "///".toList.isPrefixOf path.toList then "//"
          else "/"
        else current
      let full := (((components path).filter (· ≠ .here)).filter (· ≠ .root)).foldl
        (fun base part => join base part.text) start
      if endsInSlash path then join full "" else full := by
  rw [absolute, absolute?, if_neg named]
  cases isAbsolute path <;> rfl

/-- What is made absolute from an absolute path is absolute. -/
theorem isAbsolute_absolute {current path : String} (rooted : isAbsolute current = true)
    (named : path ≠ "") : isAbsolute (absolute current path) = true := by
  rw [absolute_eq current named]
  dsimp only
  generalize chosen : (if isAbsolute path then
      if "//".toList.isPrefixOf path.toList ∧ ¬ "///".toList.isPrefixOf path.toList then "//"
      else "/"
    else current) = start
  have started : isAbsolute start = true := by
    rw [← chosen]
    split <;> [split <;> rfl; exact rooted]
  have whole := isAbsolute_foldl_join started
    (((components path).filter (· ≠ .here)).filter (· ≠ .root))
  split
  · exact isAbsolute_join_of_base whole ""
  · exact whole

end Path

namespace Disk

variable {current path : String}

/-! ### Names -/

theorem names_slash (front back : String) :
    names (front ++ "/" ++ back) = names front ++ names back := by
  have apart : Path.pieces (front ++ "/" ++ back).toList =
      Path.pieces front.toList ++ Path.pieces back.toList := by
    simpa [Path.pieces] using Text.fields_append_sep '/' front.toList back.toList
  rw [names, apart, List.filter_append, List.map_append]
  rfl

theorem names_foldl_join {parts : List Component}
    (inside : ∀ part ∈ parts, part ≠ .root ∧ part ≠ .here)
    (isName : ∀ text, .name text ∈ parts → Path.IsName text) (start : String) :
    names (parts.foldl (fun base part => Path.join base part.text) start) =
      names start ++ parts.filterMap Component.step? := by
  induction parts generalizing start with
  | nil => simp
  | cons part rest ih =>
    have own : ∀ text, part = .name text → Path.IsName text := by
      rintro text rfl
      exact isName text List.mem_cons_self
    have proper := inside part List.mem_cons_self
    rw [List.foldl_cons, ih (fun part later => inside part (List.mem_cons_of_mem _ later))
      (fun text later => isName text (List.mem_cons_of_mem _ later)),
      names_join (Path.isAbsolute_text own proper.1)]
    have single : names part.text = (Component.step? part).toList := by
      cases part with
      | root => exact absurd rfl proper.1
      | here => exact absurd rfl proper.2
      | parent => rfl
      | name text => exact names_of_isName (own text rfl)
    rw [single, List.append_assoc, List.filterMap_cons]
    cases Component.step? part <;> rfl

/-- The names on a path made absolute. -/
theorem names_absolute (current : String) (named : path ≠ "") :
    names (Path.absolute current path) =
      (if Path.isAbsolute path then [] else names current) ++ steps path := by
  have spelled := Path.components_spelled path
  have taken : (((Path.components path).filter (· ≠ .here)).filter (· ≠ .root)).filterMap
      Component.step? = steps path := by
    rw [steps_eq]
    induction Path.components path with
    | nil => rfl
    | cons part rest ih => cases part <;> simp_all [List.filterMap_cons, Component.step?]
  have whole (start : String) : names ((((Path.components path).filter (· ≠ .here)).filter
      (· ≠ .root)).foldl (fun base part => Path.join base part.text) start) =
        names start ++ steps path := by
    rw [names_foldl_join _ _ start, taken]
    · simp
    · simp only [List.mem_filter]
      exact fun text member => spelled.isName text member.1.1
  rw [Path.absolute_eq current named]
  dsimp only
  generalize chosen : (if Path.isAbsolute path then
      if "//".toList.isPrefixOf path.toList ∧ ¬ "///".toList.isPrefixOf path.toList then "//"
      else "/"
    else current) = start
  have started : names start = if Path.isAbsolute path then [] else names current := by
    rw [← chosen]
    split <;> [split <;> rfl; rfl]
  split
  · rw [names_join rfl, whole, started, show names "" = [] from rfl, List.append_nil]
  · rw [whole, started]

/-- A character other than the slash is in a path when it is in one of its names. -/
theorem mem_toList_iff {c : Char} (other : c ≠ '/') :
    c ∈ path.toList ↔ ∃ name ∈ names path, c ∈ name.toList := by
  have pieces : ∀ chars : List Char,
      c ∈ chars ↔ ∃ piece ∈ Text.fields '/' chars, c ∈ piece := by
    intro chars
    induction chars with
    | nil => simp [Text.fields]
    | cons first rest ih =>
      rw [Text.fields]
      split
      · next slash =>
        simp [ih, slash, other]
      · rw [List.mem_cons, ih]
        cases Text.fields '/' rest <;> simp [or_assoc]
  rw [pieces, names, Path.pieces]
  constructor
  · rintro ⟨piece, member, inside⟩
    refine ⟨String.ofList piece, ?_, by simpa using inside⟩
    exact List.mem_map_of_mem
      (List.mem_filter.mpr ⟨member, by simpa using List.ne_nil_of_mem inside⟩)
  · rintro ⟨name, member, inside⟩
    obtain ⟨piece, kept, rfl⟩ := List.mem_map.mp member
    exact ⟨piece, (List.mem_filter.mp kept).1, by simpa using inside⟩

/-- The names of a place whose names a path can spell. -/
theorem names_placePath {place : Place} (isName : ∀ name ∈ place, Path.IsName name) :
    names (placePath place) = place := by
  have joined : names (String.join (place.map ("/" ++ ·))) = place := by
    induction place using List.reverseRecOn with
    | nil => rfl
    | append_singleton above name ih =>
      have whole : String.join ((above ++ [name]).map ("/" ++ ·)) =
          String.join (above.map ("/" ++ ·)) ++ "/" ++ name := by
        simp [String.append_assoc]
      rw [whole, names_slash, ih fun other member => isName other (List.mem_append_left _ member),
        names_of_isName (isName name (by simp))]
  unfold placePath
  split
  · next root =>
    rw [root]
    rfl
  · exact joined

/-! ### Walking down -/

variable {tree : Tree} {follow : Bool} {links : Nat} {start : Place} {front rest : List String}

/-- Down through directories a walk comes to the place that its names say. -/
theorem walk_down (grounded : tree.Grounded)
    (home : tree.lookup (start ++ front) = some .directory) (fits : ∀ name ∈ front, Fits name)
    (more : rest ≠ []) :
    walk tree follow links start (front ++ rest) =
      walk tree follow links (start ++ front) rest := by
  induction front generalizing start with
  | nil => rw [List.append_nil, List.nil_append]
  | cons name below ih =>
    have split : start ++ name :: below = start ++ [name] ++ below := by simp
    rw [split] at home ⊢
    have stands : tree.lookup (start ++ [name]) = some .directory := by
      by_cases ends : below = []
      · rwa [ends, List.append_nil] at home
      · exact grounded.above ends (by rw [home]; nofun)
    rw [List.cons_append, walk_directory (fits name List.mem_cons_self) stands,
      if_neg fun none => more (List.append_eq_nil_iff.mp none).2]
    exact ih home fun other member => fits other (List.mem_cons_of_mem _ member)

/-! ### What can be read and removed -/

variable {disk after : Disk} {directory tail : String} {spot : Spot} {node : Node} {content : Bytes}

/-- The path of the current directory can be spelled, and each of its names taken. -/
def Spelled (disk : Disk) : Prop :=
  ∀ name ∈ disk.current, Path.IsName name ∧ ¬ maxName < Text.size name

/-- The current directory as a path, and a path looked up from there, made absolute. -/
def absolute (disk : Disk) (path : String) : String :=
  Path.absolute disk.currentPath path

/-- A path at which a file can be read can be removed, as a file or as a link to one. -/
theorem removable_of_file? (sound : disk.Sound) (file : disk.file? path = some content) :
    ∃ spot node, Removable disk path spot node := by
  obtain ⟨spot, executable, asked, stands, slash⟩ := spot_of_file? file
  obtain ⟨usable, walked⟩ := spot_ok_iff.mp asked
  obtain ⟨first, unfollowed, leaves⟩ := (walks_of_ok walked).unfollowed
  have asked' : disk.spot false path = .ok first := spot_ok_iff.mpr ⟨usable, unfollowed.ok⟩
  rcases leaves with rfl | ⟨named, target, link⟩
  · refine ⟨first, _, asked', ?_, stands, nofun, slash⟩
    by_contra unnamed
    have home := (sound.spot asked').unnamed (by simpa using unnamed)
    rw [stands] at home
    cases home
  · exact ⟨first, _, asked', named, link, nofun, slash⟩

theorem isAbsolute_absolute (disk : Disk) (named : directory ≠ "") :
    Path.isAbsolute (disk.absolute directory) = true :=
  Path.isAbsolute_absolute (isAbsolute_placePath _) named

theorem absolute_ne_empty (disk : Disk) (named : directory ≠ "") :
    disk.absolute directory ≠ "" := by
  intro empty
  have whole := isAbsolute_absolute disk named
  rw [empty] at whole
  cases whole

/-- The absolute form spells out the way from the root to where the path starts. -/
theorem Spelled.names_join (spelled : disk.Spelled) (named : directory ≠ "")
    (relative : Path.isAbsolute tail = false) :
    names (Path.join (disk.absolute directory) tail) =
      disk.origin directory ++ (steps directory ++ names tail) := by
  have spelling : names disk.currentPath = disk.current :=
    names_placePath fun name member => (spelled name member).1
  rw [Disk.names_join relative, absolute, names_absolute _ named, spelling, List.append_assoc]
  rfl

theorem Spelled.fits_origin (spelled : disk.Spelled) (path : String) :
    ∀ name ∈ disk.origin path, Fits name := by
  unfold origin
  split
  · nofun
  · exact fun name member =>
      ⟨(spelled name member).1.ne_here, (spelled name member).1.ne_parent, (spelled name member).2⟩

/-- A path that ends in a name has that from its tail. -/
theorem exists_name_of_walk {base : String} (relative : Path.isAbsolute tail = false)
    (some : tail ≠ "")
    (walked : walk tree false links start (names (Path.join base tail)) = .ok spot)
    (ends : spot.named = true) : ∃ name ∈ names tail, name ≠ "." := by
  obtain ⟨name, last, -, fits⟩ := walk_endsIn walked ends
  rw [names_join relative, List.getLast?_append_of_ne_nil] at last
  · exact ⟨name, List.mem_of_getLast? last, fits.ne_here⟩
  · exact fun none => some (eq_empty_of_names relative none)

/-- A path whose names are in a path that the system takes has no character that it refuses. -/
theorem Usable.noNul_of_names {path other : String} (usable : Usable other)
    (among : ∀ name ∈ names path, name = "." ∨ name ∈ names other) : '\x00' ∉ path.toList := by
  intro nul
  obtain ⟨name, member, inside⟩ := (mem_toList_iff (by decide)).mp nul
  rcases among name member with rfl | member
  · simp at inside
  · exact usable.noNul ((mem_toList_iff (by decide)).mpr ⟨name, member, inside⟩)

/-- A path down from a directory is taken by the system if the absolute form of that is. -/
theorem Usable.of_absolute (usable : Usable (Path.join (disk.absolute directory) tail))
    (spelled : disk.Spelled) (named : directory ≠ "") (relative : Path.isAbsolute tail = false)
    (some : ∃ name, name ∈ names tail)
    (short : ¬ pathLimit ≤ Text.size (Path.join directory tail)) :
    Usable (Path.join directory tail) where
  noNul := by
    refine usable.noNul_of_names fun name member => ?_
    rw [spelled.names_join named relative]
    rw [names_join relative] at member
    rcases List.mem_append.mp member with before | behind
    · by_cases here : name = "."
      · exact Or.inl here
      · have kept : name ∈ steps directory := List.mem_filter.mpr ⟨before, by simpa using here⟩
        exact Or.inr (List.mem_append_right _ (List.mem_append_left _ kept))
    · exact Or.inr (List.mem_append_right _ (List.mem_append_right _ behind))
  named := by
    intro empty
    obtain ⟨name, member⟩ := some
    have none : names (Path.join directory tail) = [] := by rw [empty]; rfl
    rw [names_join relative] at none
    rw [(List.append_eq_nil_iff.mp none).2] at member
    cases member
  short := short

/-- What can be removed by the absolute form of its directory can be removed by the directory as it
is given, if that is not too long. -/
theorem Removable.of_absolute (sound : disk.Sound) (spelled : disk.Spelled)
    (removable : Removable disk (Path.join (disk.absolute directory) tail) spot node)
    (short : ¬ pathLimit ≤ Text.size (Path.join directory tail)) :
    Removable disk (Path.join directory tail) spot node := by
  cases relative : Path.isAbsolute tail with
  | true =>
    rw [Path.join_of_isAbsolute relative] at removable ⊢
    exact removable
  | false =>
    by_cases named : directory = ""
    · subst named
      exact removable
    obtain ⟨leads, ends, stands, other, slash⟩ := removable
    obtain ⟨usable, walked⟩ := spot_ok_iff.mp leads
    have some : tail ≠ "" := by
      rintro rfl
      rw [endsInSlash_join_empty (absolute_ne_empty disk named)] at slash
      cases slash
    obtain ⟨name, member, proper⟩ := exists_name_of_walk relative some walked ends
    have more : steps directory ++ names tail ≠ [] :=
      List.append_ne_nil_of_right_ne_nil _ (List.ne_nil_of_mem member)
    refine ⟨spot_ok_iff.mpr ⟨usable.of_absolute spelled named relative ⟨name, member⟩ short, ?_⟩,
      ends, stands, other, ?_⟩
    · -- The walk from the root comes through the origin, and goes on as the other one does.
      rw [spelled.names_join named relative, origin,
        if_pos (Path.isAbsolute_join_of_base (isAbsolute_absolute disk named) tail),
        walk_down sound.grounded (sound.origin directory) (spelled.fits_origin directory) more]
        at walked
      rw [origin, Path.isAbsolute_join named relative, names_join relative,
        walk_filter _ ⟨name, member, proper⟩]
      exact walked
    · rwa [endsInSlash_join relative some] at slash ⊢

/-- A file that can be read by the absolute form of a directory can be removed by the directory as
it is given, unless that is too long. -/
theorem exists_remove_of_file? (sound : disk.Sound) (spelled : disk.Spelled)
    (file : disk.file? (Path.join (disk.absolute directory) tail) = some content)
    (short : ¬ pathLimit ≤ Text.size (Path.join directory tail)) :
    ∃ after, disk.remove (Path.join directory tail) = .ok after := by
  obtain ⟨spot, node, removable⟩ := removable_of_file? sound file
  exact ⟨_, (removable.of_absolute sound spelled short).remove⟩

/-- What was removed can no longer be read. -/
theorem file?_of_remove (sound : disk.Sound) (spelled : disk.Spelled)
    (h : disk.remove (Path.join directory tail) = .ok after) :
    after.file? (Path.join (disk.absolute directory) tail) = none := by
  have sound' := sound.remove h
  obtain ⟨spot, node, removable, rfl⟩ := removable_of_remove sound h
  have short := (spot_ok_iff.mp removable.leads).1.short
  rw [Option.eq_none_iff_forall_ne_some]
  intro content file
  obtain ⟨again, left, there⟩ := removable_of_file? sound' file
  exact removable.not_removable sound again left (there.of_absolute sound' spelled short)

end Disk

end StyleMonitor
