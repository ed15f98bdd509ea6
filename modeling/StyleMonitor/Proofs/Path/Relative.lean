import StyleMonitor.Proofs.Path

/-!
# Paths as they are seen from another path

A path that is looked up from a base and then seen from that base again has the components that it
stands for there. Making a path absolute that is absolute already leaves its components alone.
-/

namespace StyleMonitor

namespace Text

/-- Pieces without the separator, put together with it, are the fields of the result. -/
theorem fields_joinFields {sep : Char} {pieces : List (List Char)} (some : pieces ≠ [])
    (none : ∀ piece ∈ pieces, sep ∉ piece) : fields sep (joinFields sep pieces) = pieces := by
  induction pieces with
  | nil => exact absurd rfl some
  | cons first more ih =>
    have own := none first List.mem_cons_self
    cases more with
    | nil => simpa [joinFields, List.intercalate] using fields_of_not_mem own
    | cons second others =>
      have rest := ih (List.cons_ne_nil _ _) fun piece later =>
        none piece (List.mem_cons_of_mem _ later)
      rw [joinFields_cons_cons, fields_append_sep, fields_of_not_mem own, rest]
      rfl

end Text

namespace Path

/-- Pieces with what they stand for when they are not the first of a path. -/
def Inside (parts : List (List Char × Option Component)) : Prop :=
  ∀ part ∈ parts, part.2 = component? part.1 ∧ '/' ∉ part.1

theorem filterMap_dropVoid (parts : List (List Char × Option Component)) :
    (dropVoid parts).filterMap (·.2) = parts.filterMap (·.2) := by
  induction parts with
  | nil => rfl
  | cons part rest ih =>
    obtain ⟨piece, component⟩ := part
    cases component with
    | none => simpa [dropVoid] using ih
    | some component => rfl

theorem dropVoid_suffix (parts : List (List Char × Option Component)) :
    dropVoid parts <:+ parts :=
  List.dropWhile_suffix _

theorem isSome_of_dropVoid {parts rest : List (List Char × Option Component)}
    {first : List Char × Option Component} (kept : dropVoid parts = first :: rest) :
    first.2.isSome := by
  have head := List.head?_dropWhile_not (fun part : List Char × Option Component => part.2.isNone)
    parts
  rw [dropVoid] at kept
  rw [kept] at head
  simpa [Option.isNone_eq_false_iff] using head

theorem filterMap_dropComponents (count : Nat) (parts : List (List Char × Option Component)) :
    (dropComponents count parts).filterMap (·.2) = (parts.filterMap (·.2)).drop count := by
  induction count, parts using dropComponents.induct with
  | case1 parts => rw [dropComponents, List.drop_zero]
  | case2 count => rfl
  | case3 count piece component rest ih => simpa [dropComponents] using ih
  | case4 count piece rest ih => simpa [dropComponents] using ih

theorem dropComponents_suffix (count : Nat) (parts : List (List Char × Option Component)) :
    dropComponents count parts <:+ parts := by
  induction count, parts using dropComponents.induct with
  | case1 parts => rw [dropComponents]
  | case2 count => exact List.suffix_refl _
  | case3 count piece component rest ih => exact ih.trans (List.suffix_cons _ _)
  | case4 count piece rest ih => exact ih.trans (List.suffix_cons _ _)

/-- Where a component goes, so does the first piece. -/
theorem dropComponents_suffix_tail {count : Nat} (some : count ≠ 0)
    (parts : List (List Char × Option Component)) :
    dropComponents count parts <:+ parts.tail := by
  obtain ⟨count, rfl⟩ := Nat.exists_eq_succ_of_ne_zero some
  cases parts with
  | nil => exact List.suffix_refl _
  | cons part rest =>
    obtain ⟨piece, component⟩ := part
    cases component with
    | none => exact dropComponents_suffix _ rest
    | some component => exact dropComponents_suffix _ rest

theorem zip_pieceComponents (path : String) :
    ∃ first rest, pieces path.toList = first :: rest ∧
      (pieces path.toList).zip (pieceComponents path.toList) =
        (first, firstComponent? path.toList first) :: rest.map fun piece =>
          (piece, component? piece) := by
  cases found : pieces path.toList with
  | nil => exact absurd found (Text.fields_ne_nil '/' path.toList)
  | cons first rest =>
    refine ⟨first, rest, rfl, ?_⟩
    simp only [pieceComponents, found, List.zip_cons_cons, List.map_prod_left_eq_zip]

/-- Pieces from the inside of a path, put together, have the components that they stand for. -/
theorem components_joinFields {parts : List (List Char × Option Component)} (inside : Inside parts)
    (starts : ∀ part ∈ parts.head?, part.2.isSome) :
    components (String.ofList (Text.joinFields '/' (parts.map (·.1)))) =
      parts.filterMap (·.2) := by
  cases parts with
  | nil => rfl
  | cons part rest =>
    have single : ∀ piece ∈ (part :: rest).map (·.1), '/' ∉ piece := by
      intro piece member
      obtain ⟨part, there, rfl⟩ := List.mem_map.mp member
      exact (inside part there).2
    have fields := Text.fields_joinFields (by simp) single
    have own := (inside part List.mem_cons_self).1
    have some := starts part rfl
    have first : ∀ path, firstComponent? path part.1 = part.2 := by
      intro path
      rw [own] at some ⊢
      unfold firstComponent?
      have proper : ¬ (part.1 = [] ∨ part.1 = ['.']) := by
        intro void
        rw [component?, if_pos void] at some
        cases some
      rw [not_or] at proper
      rw [if_neg proper.1, if_neg proper.2]
    have others : rest.map (fun part => component? part.1) = rest.map (·.2) :=
      List.map_congr_left fun part member => ((inside part (List.mem_cons_of_mem _ member)).1).symm
    unfold components pieceComponents pieces
    rw [String.toList_ofList, fields, List.map_cons]
    simp only [first, List.map_map, Function.comp_def, others]
    rw [List.filterMap_cons, List.filterMap_cons, List.filterMap_map]
    rfl

/-- A path that lies within another one, as it is seen from there: its components without those of
the other one. -/
theorem components_relativeTo? {path base : String} (within : isWithin path base = true)
    (named : components base ≠ []) :
    ∃ seen, relativeTo? path base = some seen ∧
      components seen = (components path).drop (components base).length := by
  have some : (components base).length ≠ 0 := by simpa using named
  obtain ⟨first, rest, split, parts⟩ := zip_pieceComponents path
  have single : ∀ piece ∈ pieces path.toList, '/' ∉ piece :=
    fun piece member => Text.not_mem_of_mem_fields member
  have whole : ((pieces path.toList).zip (pieceComponents path.toList)).filterMap (·.2) =
      components path := by
    rw [parts]
    simp only [components, pieceComponents, split, List.filterMap_cons, List.filterMap_map,
      Function.comp_def, id]
  generalize cut : dropVoid (dropComponents (components base).length
    ((pieces path.toList).zip (pieceComponents path.toList))) = below
  have inner : below <:+ rest.map fun piece => (piece, component? piece) := by
    rw [← cut]
    refine (dropVoid_suffix _).trans ?_
    simpa [parts] using dropComponents_suffix_tail some
      ((pieces path.toList).zip (pieceComponents path.toList))
  generalize trimmed : (dropVoid below.reverse).reverse = kept
  have front : kept <+: below := by
    rw [← trimmed, ← List.reverse_suffix, List.reverse_reverse]
    exact dropVoid_suffix _
  refine ⟨String.ofList (Text.joinFields '/' (kept.map (·.1))), ?_, ?_⟩
  · simp only [relativeTo?, within, if_true, some, false_and, if_false, cut, trimmed]
  · rw [components_joinFields]
    · rw [← trimmed, List.filterMap_reverse, filterMap_dropVoid, ← List.filterMap_reverse,
        List.reverse_reverse, ← cut, filterMap_dropVoid, filterMap_dropComponents, whole]
    · intro part member
      obtain ⟨piece, there, rfl⟩ := List.mem_map.mp (inner.mem (front.mem member))
      exact ⟨rfl, single piece (split ▸ List.mem_cons_of_mem _ there)⟩
    · intro part head
      cases kept with
      | nil => cases head
      | cons one others =>
        cases head
        obtain ⟨tail, equal⟩ := front
        exact isSome_of_dropVoid (cut.trans equal.symm)

/-- A path that is looked up from a base is seen from there as what it stands for there. -/
theorem components_relativeTo?_join {base tail : String} (relative : isAbsolute tail = false)
    (named : components base ≠ []) :
    ∃ seen, relativeTo? (join base tail) base = some seen ∧ components seen = inner tail := by
  obtain ⟨seen, found, parts⟩ := components_relativeTo? (isWithin_join relative) named
  refine ⟨seen, found, ?_⟩
  have spelled : base ≠ "" := by
    rintro rfl
    exact named rfl
  rw [parts, components_join relative spelled, List.drop_left]

/-- Only the components of the base count for what is seen from it. -/
theorem isWithin_congr {base other : String} (same : components base = components other)
    (path : String) : isWithin path base = isWithin path other := by
  rw [isWithin, isWithin, same]

theorem relativeTo?_congr {base other : String} (same : components base = components other)
    (path : String) : relativeTo? path base = relativeTo? path other := by
  rw [relativeTo?, relativeTo?, isWithin_congr same, same]

/-- A path that does not start with a `.` has the same components wherever it is looked up from. -/
theorem inner_eq_components {path : String} (relative : isAbsolute path = false)
    (plain : (components path).head? ≠ some .here) : inner path = components path := by
  unfold components pieceComponents inner at *
  cases found : pieces path.toList with
  | nil => rfl
  | cons first rest =>
    rw [found] at plain
    have own : firstComponent? path.toList first = component? first := by
      by_cases void : first = []
      · have empty : path.toList = [] := by
          cases chars : path.toList with
          | nil => rfl
          | cons c more =>
            rw [pieces, chars, Text.fields] at found
            by_cases slash : c = '/'
            · simp [isAbsolute, chars, slash] at relative
            · rw [if_neg slash] at found
              split at found
              · cases void ▸ found
              · cases void ▸ found
        simp [firstComponent?, component?, void, empty]
      · by_cases here : first = ['.']
        · simp [firstComponent?, here] at plain
        · rw [firstComponent?, if_neg void, if_neg here]
    simp only [List.filterMap_cons, own, List.filterMap_map, Function.id_comp]
    rfl

/-! ### Absolute paths -/

theorem components_foldl_join {parts : List Component}
    (inside : ∀ part ∈ parts, part ≠ .root ∧ part ≠ .here)
    (isName : ∀ text, .name text ∈ parts → IsName text) {start : String} (named : start ≠ "") :
    components (parts.foldl (fun base part => join base part.text) start) =
      components start ++ parts := by
  induction parts generalizing start with
  | nil => simp
  | cons part rest ih =>
    have own : ∀ text, part = .name text → IsName text := by
      rintro text rfl
      exact isName text List.mem_cons_self
    have proper := inside part List.mem_cons_self
    have first : components (join start part.text) = components start ++ [part] := by
      rw [components_join (isAbsolute_text own proper.1) named, inner_text own proper]
    have spelled : join start part.text ≠ "" := by
      intro empty
      rw [empty] at first
      exact absurd first (by simp [components, pieceComponents, pieces, Text.fields,
        firstComponent?])
    rw [List.foldl_cons, ih (fun part later => inside part (List.mem_cons_of_mem _ later))
      (fun text later => isName text (List.mem_cons_of_mem _ later)) spelled, first,
      List.append_assoc, List.singleton_append]

/-- An absolute path has the same components when it is made absolute. -/
theorem components_absolute (current : Option String) {path : String} (rooted : isAbsolute path = true) :
    components (absolute current path) = components path := by
  have named : path ≠ "" := by
    rintro rfl
    cases rooted
  have start := isAbsolute_eq path
  rw [rooted] at start
  obtain ⟨rest, parts⟩ : ∃ rest, components path = .root :: rest := by
    cases found : components path with
    | nil => simp [found] at start
    | cons first rest => exact ⟨rest, by simpa [found] using start.symm⟩
  have spelled := components_spelled path
  rw [parts] at spelled
  have inside : ∀ part ∈ rest, part ≠ .root ∧ part ≠ .here := spelled.inner
  have below : ((components path).filter (· ≠ .here)).filter (· ≠ .root) = rest := by
    rw [parts]
    simp only [List.filter_cons]
    simpa using inside
  have whole : ∀ slashes : String, components slashes = [.root] → slashes ≠ "" →
      components (rest.foldl (fun base part => join base part.text) slashes) =
        components path := by
    intro slashes one some
    rw [components_foldl_join inside (fun text member =>
      spelled.isName text (List.mem_cons_of_mem _ member)) some, one, parts, List.singleton_append]
  generalize chosen : (if "//".toList.isPrefixOf path.toList ∧
    ¬ "///".toList.isPrefixOf path.toList then "//" else "/") = slashes
  have full : components (rest.foldl (fun base part => join base part.text) slashes) =
      components path := by
    rw [← chosen]
    split
    · exact whole "//" rfl (by decide)
    · exact whole "/" rfl (by decide)
  simp only [absolute, absolute?, named, if_false, rooted, if_true, below, chosen,
    Option.map_some, Option.getD_some]
  split
  · have some : rest.foldl (fun base part => join base part.text) slashes ≠ "" := by
      intro empty
      rw [empty, parts] at full
      cases full
    rw [components_join rfl some, full]
    exact List.append_nil _
  · exact full

end Path

end StyleMonitor
