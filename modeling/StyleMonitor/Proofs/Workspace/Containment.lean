import StyleMonitor.Proofs.Disk.Absolute
import StyleMonitor.Proofs.Workspace.Innermost

/-!
# Where the files of a workspace lie

A changed file belongs to a root whose components its path begins with. What follows them may lead
back by `..`, and below what is given as a root the path need not end up: it does when it comes down
again by all the names of the root that it goes back by, and in particular when it goes back by none.
-/

namespace StyleMonitor

namespace Path

/-- The place that a component of a path leads to from a place: `..` leads back, and from the root
nowhere. -/
def advance (place : List String) : Component → List String
  | .name text => place ++ [text]
  | .parent => place.dropLast
  | _ => place

/-- The place that a path names when it is taken from the root, its `.` and `..` resolved. -/
def settled (path : String) : List String :=
  (components path).foldl advance []

/-- A way that leads back by some names and then down by others. -/
structure Detour where
  back : Nat := 0
  down : List String := []
  deriving DecidableEq, Repr

namespace Detour

/-- A way with one more component. -/
def extend (detour : Detour) : Component → Detour
  | .name text => { detour with down := detour.down ++ [text] }
  | .parent =>
    if detour.down = [] then { detour with back := detour.back + 1 }
    else { detour with down := detour.down.dropLast }
  | _ => detour

/-- The place that a way leads to. -/
def target (detour : Detour) (place : List String) : List String :=
  place.take (place.length - detour.back) ++ detour.down

theorem target_extend (detour : Detour) (part : Component) (place : List String) :
    (detour.extend part).target place = advance (detour.target place) part := by
  cases part with
  | root | here => rfl
  | name text => simp [extend, target, advance]
  | parent =>
    simp only [extend, advance, target]
    split
    · next bottom =>
      rw [bottom, List.append_nil, List.append_nil, List.dropLast_eq_take, List.take_take,
        List.length_take]
      congr 1
      simp only
      omega
    · next below => rw [List.dropLast_append_of_ne_nil below]

/-- A way stays below a place when it comes down by all the names that it goes back by. -/
theorem prefix_target_iff (detour : Detour) (place : List String) :
    place <+: detour.target place ↔ place.drop (place.length - detour.back) <+: detour.down := by
  have whole := List.take_append_drop (place.length - detour.back) place
  rw [target]
  nth_rewrite 1 [← whole]
  exact List.prefix_append_right_inj _

end Detour

/-- The way that components lead. -/
def detour (rest : List Component) : Detour :=
  rest.foldl Detour.extend {}

theorem target_detour (rest : List Component) (place : List String) :
    (detour rest).target place = rest.foldl advance place := by
  -- From the back, for the way is extended there.
  induction rest using List.reverseRecOn with
  | nil => simp [detour, Detour.target]
  | append_singleton front part ih =>
    have longer : detour (front ++ [part]) = (detour front).extend part := by
      simp [detour, List.foldl_append]
    rw [longer, Detour.target_extend, ih, List.foldl_append]
    rfl

/-- A path that begins with the components of a base lies where they lead and then the others. -/
theorem settled_eq_target {path base : String} {rest : List Component}
    (parts : components path = components base ++ rest) :
    settled path = (detour rest).target (settled base) := by
  rw [target_detour, settled, settled, parts, List.foldl_append]

/-- An absolute path without `..` is the root and the names of the place that it leads to. -/
theorem components_eq_settled {path : String} (rooted : isAbsolute path = true)
    (down : .parent ∉ components path) :
    components path = .root :: (settled path).map .name := by
  have spelled := components_spelled path
  rw [isAbsolute_eq] at rooted
  rw [settled]
  cases parts : components path with
  | nil => simp [parts] at rooted
  | cons first rest =>
    rw [parts] at rooted spelled down
    cases (show first = .root by simpa using rooted)
    have inner : ∀ part ∈ rest, ∃ text, part = .name text := by
      intro part member
      cases part with
      | root => exact absurd rfl (spelled.inner _ member).1
      | here => exact absurd rfl (spelled.inner _ member).2
      | parent => exact absurd (List.mem_cons_of_mem _ member) down
      | name text => exact ⟨text, rfl⟩
    have walked : ∀ place, (rest.foldl advance place).map Component.name =
        place.map .name ++ rest := by
      clear parts spelled down rooted
      induction rest with
      | nil => simp
      | cons part more ih =>
        intro place
        obtain ⟨text, rfl⟩ := inner _ List.mem_cons_self
        rw [List.foldl_cons, ih fun part member => inner part (List.mem_cons_of_mem _ member)]
        simp [advance]
    rw [List.foldl_cons]
    exact congrArg _ (walked []).symm

theorem isWithin_trans {path middle base : String} (inner : isWithin path middle = true)
    (outer : isWithin middle base = true) : isWithin path base = true := by
  rw [isWithin, List.isPrefixOf_iff_prefix] at inner outer ⊢
  exact outer.trans inner

theorem isWithin_foldl_join {parts : List Component}
    (relative : ∀ part ∈ parts, isAbsolute part.text = false) (start : String) :
    isWithin (parts.foldl (fun base part => join base part.text) start) start = true := by
  induction parts generalizing start with
  | nil => exact isWithin_refl start
  | cons part rest ih =>
    exact isWithin_trans
      (ih (fun other member => relative other (List.mem_cons_of_mem _ member)) _)
      (isWithin_join (relative part List.mem_cons_self))

/-- A relative path that is made absolute begins with the directory that it is taken from. -/
theorem isWithin_absolute {path : String} (relative : isAbsolute path = false) (named : path ≠ "")
    (current : String) : isWithin (absolute current path) current = true := by
  have spelled := components_spelled path
  have whole : isWithin ((((components path).filter (· ≠ .here)).filter (· ≠ .root)).foldl
      (fun base part => join base part.text) current) current = true := by
    refine isWithin_foldl_join ?_ current
    intro part member
    obtain ⟨kept, inside⟩ := List.mem_filter.mp member
    refine isAbsolute_text ?_ (by simpa using inside)
    rintro text rfl
    exact spelled.isName text (List.mem_filter.mp kept).1
  simp only [absolute, absolute?, if_neg named, relative, Bool.false_eq_true, if_false,
    Option.map_some, Option.getD_some]
  split
  · exact isWithin_trans (isWithin_join rfl) whole
  · exact whole

end Path

namespace Disk

variable {tree : Tree} {follow : Bool} {links : Nat} {start : Place} {names : List String}
  {spot : Spot} {disk : Disk} {path : String}

/-- The place that a name on a path leads to. -/
def stepFrom (place : Place) (name : String) : Place :=
  if name = ".." then place.dropLast else place ++ [name]

theorem foldl_stepFrom (path : String) (place : Place) :
    (steps path).foldl stepFrom place = (Path.components path).foldl Path.advance place := by
  have isName := (Path.components_spelled path).isName
  rw [steps_eq]
  generalize Path.components path = parts at isName
  induction parts generalizing place with
  | nil => rfl
  | cons part rest ih =>
    have later : ∀ text, Component.name text ∈ rest → Path.IsName text :=
      fun text member => isName text (List.mem_cons_of_mem _ member)
    cases part with
    | root | here => exact ih place later
    | parent => exact ih place.dropLast later
    | name text =>
      have proper : stepFrom place text = place ++ [text] :=
        if_neg (isName text List.mem_cons_self).ne_parent
      have first : (Component.name text :: rest).filterMap Component.step? =
          text :: rest.filterMap Component.step? := rfl
      rw [first, List.foldl_cons, List.foldl_cons, proper]
      exact ih _ later

theorem foldl_stepFrom_down {below : List String} (down : ∀ name ∈ below, name ≠ "..") :
    below.foldl stepFrom start = start ++ below := by
  induction below generalizing start with
  | nil => simp
  | cons name rest ih =>
    rw [List.foldl_cons, stepFrom, if_neg (down name List.mem_cons_self),
      ih fun other member => down other (List.mem_cons_of_mem _ member), List.append_assoc,
      List.singleton_append]

/-- Where there are no links, a walk goes by its names alone. -/
theorem walk_settles (plain : ∀ place target, tree.lookup place ≠ some (.link target))
    (h : walk tree follow links start names = .ok spot) :
    spot.place = (names.filter (· ≠ ".")).foldl stepFrom start := by
  have named {start : Place} {name : String} {rest : List String} (fits : Fits name) :
      ((name :: rest).filter (· ≠ ".")).foldl stepFrom start =
        (rest.filter (· ≠ ".")).foldl stepFrom (start ++ [name]) := by
    rw [List.filter_cons_of_pos (by simpa using fits.ne_here), List.foldl_cons, stepFrom,
      if_neg fits.ne_parent]
  have walks := walks_of_ok h
  clear h
  induction walks with
  | nil => rfl
  | here _ ih =>
    rw [List.filter_cons_of_neg (by simp)]
    exact ih
  | parent _ ih =>
    rw [List.filter_cons_of_pos (by simp)]
    exact ih
  | last fits =>
    rw [named fits]
    rfl
  | directory fits _ _ _ ih =>
    rw [named fits]
    exact ih
  | link _ stands => exact absurd stands (plain _ _)

/-- The names that the absolute form of a path takes. -/
theorem Spelled.steps_absolute (spelled : disk.Spelled) (named : path ≠ "") :
    steps (disk.absolute path) = disk.origin path ++ steps path := by
  have spelling : names disk.currentPath = disk.current :=
    names_placePath fun name member => (spelled name member).1
  have proper : disk.current.filter (· ≠ ".") = disk.current :=
    List.filter_eq_self.mpr fun name member => by simpa using (spelled name member).1.ne_here
  have again : (steps path).filter (· ≠ ".") = steps path := by simp [steps]
  rw [steps, absolute, names_absolute _ named, List.filter_append, again, origin]
  split
  · rfl
  · rw [spelling, proper]

/-- Where there are no links, a path leads to the place that its absolute form names. -/
theorem place_of_spot (spelled : disk.Spelled)
    (plain : ∀ place target, disk.tree.lookup place ≠ some (.link target))
    (asked : disk.spot follow path = .ok spot) :
    spot.place = Path.settled (disk.absolute path) := by
  obtain ⟨usable, walked⟩ := spot_ok_iff.mp asked
  have settles : spot.place = (steps path).foldl stepFrom (disk.origin path) :=
    walk_settles plain walked
  have down : (disk.origin path).foldl stepFrom [] = [] ++ disk.origin path :=
    foldl_stepFrom_down fun name member => (spelled.fits_origin path name member).ne_parent
  rw [settles, Path.settled, ← foldl_stepFrom, spelled.steps_absolute usable.named,
    List.foldl_append, down, List.nil_append]

end Disk

namespace Workspace

variable {current : Option String} {trigger root : String} {roots banned : List String}
  {requireSources : Bool}
  {holdsSources : String → Bool}

/-- Where the path of a trigger lies that belongs to a root. Its components begin with those of the
root, and it stays below the root exactly when it comes down again by the names of the root that
the rest of it goes back by. Where there are no links, that is the place that the path leads to. -/
theorem resolve_settled (current : Option String) (roots banned : List String) (requireSources : Bool)
    (holdsSources : String → Bool) (trigger root : String)
    (rooted : ∀ written ∈ roots,
      Path.isAbsolute written = true ∧ Component.parent ∉ Path.components written)
    (accepted : (make current roots banned requireSources).resolve current holdsSources trigger =
      .ok root) :
    ∃ rest, Path.components (Path.absolute current trigger) = Path.components root ++ rest ∧
      (Path.components root <+:
          .root :: (Path.settled (Path.absolute current trigger)).map .name ↔
        (Path.settled root).drop ((Path.settled root).length - (Path.detour rest).back) <+:
          (Path.detour rest).down) ∧
      ∀ disk : Disk, disk.Spelled → some disk.currentPath = current →
        (∀ place target, disk.tree.lookup place ≠ some (.link target)) →
        ∀ follow spot, disk.spot follow trigger = .ok spot →
          spot.place = Path.settled (Path.absolute current trigger) := by
  obtain ⟨member, holds, -⟩ := rootOf?_eq_some (rootOf?_of_resolve accepted)
  obtain ⟨written, there, rfl⟩ := List.mem_map.mp member
  obtain ⟨absolute, down⟩ := rooted written there
  have same := Path.components_absolute current absolute
  rw [Path.isWithin, List.isPrefixOf_iff_prefix] at holds
  obtain ⟨rest, parts⟩ := holds
  refine ⟨rest, parts.symm, ?_, ?_⟩
  · have own : Path.components (Path.absolute current written) =
        .root :: (Path.settled (Path.absolute current written)).map .name := by
      refine Path.components_eq_settled ?_ (same ▸ down)
      rw [Path.isAbsolute_eq, same, ← Path.isAbsolute_eq, absolute]
    have inject : Function.Injective Component.name := fun _ _ same => Component.name.inj same
    rw [own, List.cons_prefix_cons, List.prefix_map_iff_of_injective inject,
      Path.settled_eq_target parts.symm, ← Path.Detour.prefix_target_iff]
    exact and_iff_right rfl
  · rintro disk spelled rfl plain follow spot asked
    exact Disk.place_of_spot spelled plain asked

/-- A path that leaves a directory of a root and comes back to it belongs to that root, and lies
there. -/
theorem resolve_settled_return :
    (make "/w/a" ["/w", "/w/a"] [] false).resolve "/w/a" (fun _ => false) "b/../../a/x.c" =
      .ok "/w/a" ∧
    Path.components "/w/a" <+:
      .root :: (Path.settled (Path.absolute "/w/a" "b/../../a/x.c")).map .name := by
  have accepted : (make "/w/a" ["/w", "/w/a"] [] false).resolve "/w/a" (fun _ => false)
      "b/../../a/x.c" = .ok "/w/a" := by
    decide +kernel
  refine ⟨accepted, ?_⟩
  obtain ⟨rest, parts, stays, -⟩ := resolve_settled "/w/a" ["/w", "/w/a"] [] false
    (fun _ => false) "b/../../a/x.c" "/w/a" (by decide +kernel) accepted
  have known : Path.components (Path.absolute "/w/a" "b/../../a/x.c") =
      Path.components "/w/a" ++ [.name "b", .parent, .parent, .name "a", .name "x.c"] := by
    decide +kernel
  rw [List.append_cancel_left (parts.symm.trans known)] at stays
  exact stays.mpr (by decide +kernel)

/-- From a directory of a root every relative path belongs to some root, wherever it leads. -/
theorem exists_resolve_of_relative {current : String} (relative : Path.isAbsolute trigger = false)
    (named : trigger ≠ "") (free : ∀ extension, ¬ IsBanned banned trigger extension)
    (home : ¬ Outside current roots current) :
    ∃ root, (make current roots banned false).resolve current holdsSources trigger = .ok root := by
  have inside := Path.isWithin_absolute relative named current
  rw [Path.isWithin, List.isPrefixOf_iff_prefix] at inside
  have held : ¬ Outside current roots (Path.absolute current trigger) := fun outside =>
    home fun written member holds => outside written member (holds.trans inside)
  obtain ⟨root, -, answer⟩ := resolve_of_held false holdsSources free held
  exact ⟨root, by rw [answer, if_neg (by simp)]⟩

/-- The directories `/w/a` and `/w/other`, and a file in the second. -/
def neighbours : Disk where
  tree := ⟨[(["w"], .directory), (["w", "a"], .directory), (["w", "other"], .directory),
    (["w", "other", "x.c"], .file [] false)]⟩
  current := ["w", "a"]

/-- A path that leaves the root belongs to it all the same: the file it leads to lies beside. -/
theorem resolve_leaves_root :
    (make "/w/a" ["/w/a"] [] false).resolve "/w/a" (fun _ => false) "../other/x.c" = .ok "/w/a" ∧
    neighbours.currentPath = "/w/a" ∧
    neighbours.spot true "../other/x.c" =
      .ok ⟨["w", "other", "x.c"], some (.file [] false), true⟩ ∧
    Path.settled (Path.absolute "/w/a" "../other/x.c") = ["w", "other", "x.c"] ∧
    ¬ Path.components "/w/a" <+:
      .root :: (Path.settled (Path.absolute "/w/a" "../other/x.c")).map .name := by
  decide +kernel

end Workspace

end StyleMonitor
