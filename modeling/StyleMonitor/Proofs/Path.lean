import Mathlib.Data.List.Infix
import StyleMonitor.Path

/-!
# Paths by their components

Two spellings are the same path when their components are the same. A path that is looked up from
a base has the components of the base, and then its own, unless it is absolute: so it lies within
the base exactly when it is not absolute, or is absolute and lies there by itself.
-/

namespace StyleMonitor

namespace Text

/-- The fields of two texts with a separator between them. -/
theorem fields_append_sep {α : Type} [DecidableEq α] (sep : α) (s t : List α) :
    fields sep (s ++ sep :: t) = fields sep s ++ fields sep t := by
  induction s with
  | nil => simp [fields]
  | cons c rest ih =>
    rw [List.cons_append, fields, fields, ih]
    split
    · rfl
    · cases found : fields sep rest with
      | nil => exact absurd found (fields_ne_nil sep rest)
      | cons piece more => rfl

/-- A text without the separator is its only field. -/
theorem fields_of_not_mem {α : Type} [DecidableEq α] {sep : α} {s : List α} (none : sep ∉ s) :
    fields sep s = [s] := by
  induction s with
  | nil => rfl
  | cons c rest ih =>
    have apart : c ≠ sep := fun same => none (same ▸ List.mem_cons_self)
    rw [fields, if_neg apart, ih fun member => none (List.mem_cons_of_mem _ member)]

theorem not_mem_of_mem_fields {sep : Char} {s piece : List Char} (member : piece ∈ fields sep s) :
    sep ∉ piece := by
  induction s generalizing piece with
  | nil =>
    rw [fields, List.mem_singleton] at member
    subst member
    exact List.not_mem_nil
  | cons c rest ih =>
    rw [fields] at member
    split at member
    · rcases List.mem_cons.mp member with rfl | later
      · exact List.not_mem_nil
      · exact ih later
    · next apart =>
      cases found : fields sep rest with
      | nil => exact absurd found (fields_ne_nil sep rest)
      | cons first more =>
        rw [found] at member
        rcases List.mem_cons.mp member with rfl | later
        · intro inside
          rcases List.mem_cons.mp inside with same | inner
          · exact apart same.symm
          · exact ih (found ▸ List.mem_cons_self) inner
        · exact ih (found ▸ List.mem_cons_of_mem _ later)

theorem cutFirst_eq {sep : Char} {s before after : List Char}
    (h : cutFirst sep s = some (before, after)) : s = before ++ sep :: after := by
  induction s generalizing before with
  | nil => cases h
  | cons c rest ih =>
    rw [cutFirst] at h
    split at h
    · next same =>
      cases h
      rw [same, List.nil_append]
    · obtain ⟨⟨front, back⟩, found, equal⟩ := Option.map_eq_some_iff.mp h
      cases equal
      rw [ih found, List.cons_append]

/-- What stands before and after the last separator. -/
theorem cutLast_eq {sep : Char} {s before after : List Char}
    (h : cutLast sep s = some (before, after)) : s = before ++ sep :: after := by
  obtain ⟨⟨back, front⟩, found, equal⟩ := Option.map_eq_some_iff.mp h
  cases equal
  have reversed := cutFirst_eq found
  rw [List.reverse_eq_iff] at reversed
  simpa using reversed

end Text

namespace Path

theorem same_iff {a b : String} : same a b = true ↔ components a = components b := by
  simp [same]

theorem same_comm (a b : String) : same a b = same b a := by
  rw [Bool.eq_iff_iff, same_iff, same_iff]
  exact eq_comm

/-- Two paths that are the same path are the same as the same paths. -/
theorem same_congr_left {a b : String} (h : same a b = true) (c : String) :
    same a c = same b c := by
  rw [Bool.eq_iff_iff, same_iff, same_iff, same_iff.mp h]

theorem same_congr_right {a b : String} (h : same a b = true) (c : String) :
    same c a = same c b := by
  rw [same_comm c a, same_comm c b, same_congr_left h]

theorem same_trans {a b c : String} (hab : same a b = true) (hbc : same b c = true) :
    same a c = true := by
  rw [same_congr_left hab, hbc]


/-- What the pieces of a path stand for when it is looked up from somewhere. A leading `.` does
not count then. -/
def inner (path : String) : List Component :=
  (pieces path.toList).filterMap component?

theorem components_append_slash {base : String} (named : base ≠ "") (tail : String) :
    components (base ++ "/" ++ tail) = components base ++ inner tail := by
  have apart : pieces (base ++ "/" ++ tail).toList = pieces base.toList ++ pieces tail.toList := by
    simpa [pieces] using Text.fields_append_sep '/' base.toList tail.toList
  have named : base.toList ≠ [] := by simpa using named
  unfold components pieceComponents inner
  rw [apart]
  cases found : pieces base.toList with
  | nil => exact absurd found (Text.fields_ne_nil '/' base.toList)
  | cons first rest =>
    have same : firstComponent? (base ++ "/" ++ tail).toList first =
        firstComponent? base.toList first := by
      unfold firstComponent?
      simp [named]
    simp only [List.cons_append, same, List.filterMap_cons, List.map_append, List.filterMap_append,
      List.filterMap_map, Function.id_comp]
    split <;> rfl

/-- A slash at the end of a path adds no component. -/
theorem components_append_end {base : String} (named : base ≠ "") :
    components (base ++ "/") = components base := by
  have h := components_append_slash named ""
  have none : inner "" = [] := rfl
  rwa [none, List.append_nil, String.append_empty] at h

theorem components_slash (tail : String) : components ("/" ++ tail) = .root :: inner tail := by
  have apart : pieces ("/" ++ tail).toList = [] :: pieces tail.toList := by
    simp [pieces, Text.fields]
  have start : firstComponent? ("/" ++ tail).toList [] = some .root := by
    simp [firstComponent?]
  simp only [components, pieceComponents, apart, start, inner, List.filterMap_cons,
    List.filterMap_map, Function.id_comp]
  rfl

/-- A path that is not absolute, looked up from a base: the components of the base and then its
own. -/
theorem components_join {base tail : String} (relative : isAbsolute tail = false)
    (named : base ≠ "") : components (join base tail) = components base ++ inner tail := by
  unfold join
  rw [if_neg (by simp [relative])]
  by_cases ends : endsInSlash base = true
  · rw [if_pos (Or.inr ends)]
    obtain ⟨front, rfl⟩ : ∃ front, base = front ++ "/" := by
      have last : base.toList.getLast? = some '/' := by simpa [endsInSlash] using ends
      obtain ⟨front, split⟩ := List.getLast?_eq_some_iff.mp last
      refine ⟨String.ofList front, String.toList_inj.mp ?_⟩
      simpa using split
    by_cases root : front = ""
    · subst root
      have none : components ("" ++ "/") = [.root] := rfl
      rw [none, String.empty_append]
      exact components_slash tail
    · rw [components_append_slash root, components_append_end root]
  · rw [if_neg (by simp [named, ends])]
    exact components_append_slash named tail

/-- A path that is not absolute leads to a place within the base it is looked up from. -/
theorem isWithin_join {base tail : String} (relative : isAbsolute tail = false) :
    isWithin (join base tail) base = true := by
  rw [isWithin, List.isPrefixOf_iff_prefix]
  by_cases named : base = ""
  · subst named
    exact List.nil_prefix
  · rw [components_join relative named]
    exact List.prefix_append _ _

/-! ### Components as a path -/

/-- A text that can be the name of a file. -/
structure IsName (text : String) : Prop where
  named : text ≠ ""
  single : '/' ∉ text.toList
  ne_here : text ≠ "."
  ne_parent : text ≠ ".."

/-- Components that some path has. -/
structure Spelled (parts : List Component) : Prop where
  isName : ∀ text, .name text ∈ parts → IsName text
  inner : ∀ part ∈ parts.tail, part ≠ .root ∧ part ≠ .here

theorem isName_of_component? {piece : List Char} {text : String} (single : '/' ∉ piece)
    (h : component? piece = some (.name text)) : IsName text := by
  unfold component? at h
  split at h
  · cases h
  next proper =>
  split at h
  · cases h
  next up =>
  cases h
  rw [not_or] at proper
  refine ⟨?_, by simpa using single, ?_, ?_⟩
  · intro empty
    exact proper.1 (by simpa using congrArg String.toList empty)
  · intro here
    exact proper.2 (by simpa using congrArg String.toList here)
  · intro parent
    exact up (by simpa using congrArg String.toList parent)

theorem component?_ne (piece : List Char) :
    component? piece ≠ some .root ∧ component? piece ≠ some .here := by
  unfold component?
  split
  · exact ⟨nofun, nofun⟩
  split
  · exact ⟨nofun, nofun⟩
  · exact ⟨nofun, nofun⟩

/-- The first piece of a path may stand for the root or for a leading `.`, and stands for what any
piece does otherwise. -/
theorem firstComponent?_cases {chars piece : List Char} {part : Component}
    (found : firstComponent? chars piece = some part) :
    part = .root ∨ part = .here ∨ component? piece = some part := by
  unfold firstComponent? at found
  split at found
  · split at found
    · cases found
    · exact Or.inl (Option.some.inj found).symm
  split at found
  · exact Or.inr (Or.inl (Option.some.inj found).symm)
  · exact Or.inr (Or.inr found)

/-- A path is absolute when its first component is the root. -/
theorem isAbsolute_eq (path : String) :
    isAbsolute path = ((components path).head? == some .root) := by
  unfold isAbsolute components pieceComponents pieces
  generalize path.toList = chars
  cases chars with
  | nil => rfl
  | cons c rest =>
    rw [Text.fields]
    by_cases slash : c = '/'
    · subst slash
      simp [firstComponent?]
    · cases found : Text.fields '/' rest with
      | nil => exact absurd found (Text.fields_ne_nil '/' rest)
      | cons piece more =>
        have first : ∃ part, firstComponent? (c :: rest) (c :: piece) = some part ∧
            part ≠ .root := by
          unfold firstComponent? component?
          rw [if_neg (List.cons_ne_nil _ _)]
          split
          · exact ⟨_, rfl, by simp⟩
          next proper =>
          rw [if_neg (by simp [proper])]
          split
          · exact ⟨_, rfl, by simp⟩
          · exact ⟨_, rfl, by simp⟩
        obtain ⟨part, found, apart⟩ := first
        simp [slash, found, apart]

theorem components_spelled (path : String) : Spelled (components path) := by
  have single : ∀ piece ∈ pieces path.toList, '/' ∉ piece :=
    fun piece member => Text.not_mem_of_mem_fields member
  unfold components pieceComponents
  cases found : pieces path.toList with
  | nil => exact ⟨nofun, nofun⟩
  | cons first rest =>
    rw [found] at single
    constructor
    · intro text member
      obtain ⟨_, among, rfl⟩ := List.mem_filterMap.mp member
      rcases List.mem_cons.mp among with start | later
      · rcases firstComponent?_cases start.symm with no | no | own
        · cases no
        · cases no
        · exact isName_of_component? (single first List.mem_cons_self) own
      · obtain ⟨piece, there, own⟩ := List.mem_map.mp later
        exact isName_of_component? (single piece (List.mem_cons_of_mem _ there)) own
    · intro part member
      have later : part ∈ (rest.map component?).filterMap id := by
        rw [List.filterMap_cons] at member
        split at member
        · exact List.mem_of_mem_tail member
        · exact member
      obtain ⟨_, among, rfl⟩ := List.mem_filterMap.mp later
      obtain ⟨piece, -, own⟩ := List.mem_map.mp among
      constructor
      · rintro rfl
        exact (component?_ne piece).1 own
      · rintro rfl
        exact (component?_ne piece).2 own

theorem Spelled.of_append {front rest : List Component} (spelled : Spelled (front ++ rest)) :
    Spelled front := by
  refine ⟨fun text member => spelled.isName text (List.mem_append_left _ member), ?_⟩
  intro part member
  cases front with
  | nil => cases member
  | cons first more => exact spelled.inner part (List.mem_append_left _ member)

/-- A name is a path of its own. -/
theorem IsName.pieces {text : String} (isName : IsName text) :
    Path.pieces text.toList = [text.toList] :=
  Text.fields_of_not_mem isName.single

theorem IsName.component? {text : String} (isName : IsName text) :
    Path.component? text.toList = some (.name text) := by
  have named : text.toList ≠ [] := by simpa using isName.named
  have here : text.toList ≠ ['.'] := fun same =>
    isName.ne_here (String.toList_inj.mp same)
  have parent : text.toList ≠ ['.', '.'] := fun same =>
    isName.ne_parent (String.toList_inj.mp same)
  rw [Path.component?, if_neg (by simp [named, here]), if_neg parent, String.ofList_toList]

theorem IsName.isAbsolute {text : String} (isName : IsName text) :
    isAbsolute text = false := by
  have single := isName.single
  unfold Path.isAbsolute
  cases chars : text.toList with
  | nil => rfl
  | cons c rest =>
    rw [chars] at single
    have apart : c ≠ '/' := fun same => single (same ▸ List.mem_cons_self)
    simpa using apart

theorem components_text {part : Component} (isName : ∀ text, part = .name text → IsName text) :
    components part.text = [part] := by
  cases part with
  | root => rfl
  | here => rfl
  | parent => rfl
  | name text =>
    have isName := isName text rfl
    have named : text.toList ≠ [] := by simpa using isName.named
    have here : text.toList ≠ ['.'] := fun same =>
      isName.ne_here (String.toList_inj.mp same)
    unfold components pieceComponents
    rw [Component.text, isName.pieces]
    simp [firstComponent?, named, here, isName.component?]

theorem inner_text {part : Component} (isName : ∀ text, part = .name text → IsName text)
    (inside : part ≠ .root ∧ part ≠ .here) : inner part.text = [part] := by
  cases part with
  | root => exact absurd rfl inside.1
  | here => exact absurd rfl inside.2
  | parent => rfl
  | name text =>
    have isName := isName text rfl
    simp [inner, Component.text, isName.pieces, isName.component?]

theorem isAbsolute_text {part : Component} (isName : ∀ text, part = .name text → IsName text)
    (inside : part ≠ .root) : isAbsolute part.text = false := by
  cases part with
  | root => exact absurd rfl inside
  | here => rfl
  | parent => rfl
  | name text => exact (isName text rfl).isAbsolute

theorem ofComponents_append (front : List Component) (last : Component) :
    ofComponents (front ++ [last]) = join (ofComponents front) last.text := by
  simp [ofComponents, List.foldl_append]

/-- Components as a path have themselves as components. -/
theorem components_ofComponents {parts : List Component} (spelled : Spelled parts) :
    components (ofComponents parts) = parts := by
  induction parts using List.reverseRecOn with
  | nil => rfl
  | append_singleton front last ih =>
    have isName : ∀ text, last = .name text → IsName text := by
      rintro text rfl
      exact spelled.isName text (by simp)
    have own := ih spelled.of_append
    rw [ofComponents_append]
    cases front with
    | nil =>
      have same : join (ofComponents []) last.text = last.text := by
        simp [join, ofComponents]
      rw [same, List.nil_append, components_text isName]
    | cons first more =>
      have inside : last ≠ .root ∧ last ≠ .here :=
        spelled.inner last (by simp)
      have named : ofComponents (first :: more) ≠ "" := by
        intro empty
        rw [empty] at own
        cases own
      rw [components_join (isAbsolute_text isName inside.1) named, own, inner_text isName inside]

theorem parent?_eq {path above : String} (h : parent? path = some above) :
    components path ≠ [] ∧ above = ofComponents (components path).dropLast := by
  unfold parent? at h
  cases last : (components path).getLast? with
  | none =>
    rw [last] at h
    cases h
  | some part =>
    rw [last] at h
    constructor
    · intro none
      rw [none] at last
      cases last
    · cases part with
      | root => cases h
      | _ => exact (Option.some.inj h).symm

theorem components_dropLast {path : String} :
    components (ofComponents (components path).dropLast) = (components path).dropLast := by
  apply components_ofComponents
  have spelled := components_spelled path
  cases split : (components path).getLast? with
  | none =>
    rw [List.getLast?_eq_none_iff.mp split]
    exact ⟨nofun, nofun⟩
  | some last =>
    obtain ⟨front, equal⟩ := List.getLast?_eq_some_iff.mp split
    rw [equal] at spelled ⊢
    rw [List.dropLast_concat]
    exact spelled.of_append

theorem fileName?_eq {path name : String} (h : fileName? path = some name) :
    ∃ front, components path = front ++ [.name name] := by
  unfold fileName? at h
  split at h
  · next text last =>
    cases h
    exact List.getLast?_eq_some_iff.mp last
  · cases h

/-! ### Other extensions -/

/-- A name has no extension, or it is what comes before the extension, a dot and the extension. -/
theorem splitName_eq (name : String) :
    splitName name = (name, none) ∨
      ∃ stem extension, splitName name = (stem, some extension) ∧
        name = stem ++ "." ++ extension := by
  unfold splitName
  cases cut : Text.cutLast '.' name.toList with
  | none => exact Or.inl rfl
  | some parts =>
    obtain ⟨before, after⟩ := parts
    simp only
    split
    · exact Or.inl rfl
    · refine Or.inr ⟨_, _, rfl, ?_⟩
      apply String.toList_inj.mp
      simpa using Text.cutLast_eq cut

/-- The name of a file with another extension is a name. -/
theorem isName_withExtension {name : String} (isName : IsName name) :
    IsName ((splitName name).1 ++ ".bak") := by
  have stem : '/' ∉ (splitName name).1.toList := by
    rcases splitName_eq name with same | ⟨stem, extension, same, equal⟩
    · rw [same]
      exact isName.single
    · rw [same]
      have single := isName.single
      rw [equal] at single
      simp only [String.toList_append, List.mem_append, not_or] at single
      exact single.1.1
  have long : 4 ≤ ((splitName name).1 ++ ".bak").toList.length := by
    simp
  refine ⟨?_, ?_, ?_, ?_⟩
  · intro empty
    rw [empty] at long
    revert long
    decide
  · simpa using stem
  · intro here
    rw [here] at long
    revert long
    decide
  · intro up
    rw [up] at long
    revert long
    decide

/-- A file whose extension is not `bak` does not have the name of its backup. -/
theorem ne_withExtension {name : String} (other : (splitName name).2 ≠ some "bak") :
    name ≠ (splitName name).1 ++ ".bak" := by
  intro same
  rcases splitName_eq name with whole | ⟨stem, extension, split, equal⟩
  · rw [whole] at same
    have length := congrArg (fun text => text.toList.length) same
    simp at length
  · rw [split] at same other
    have tails : ("." ++ extension).toList = ".bak".toList := by
      have whole := congrArg String.toList (equal.symm.trans same)
      simpa using whole
    apply other
    have chars : extension.toList = "bak".toList := by simpa using tails
    rw [String.toList_inj.mp chars]

theorem components_withExtension {path name : String} (h : fileName? path = some name) :
    components (withExtension path "bak") =
      (components path).dropLast ++ [.name ((splitName name).1 ++ ".bak")] := by
  obtain ⟨front, parts⟩ := fileName?_eq h
  have spelled := components_spelled path
  rw [parts] at spelled
  have isName : IsName name := spelled.isName name (by simp)
  have joined : (splitName name).1 ++ "." ++ "bak" = (splitName name).1 ++ ".bak" := by
    rw [String.append_assoc]
    rfl
  unfold withExtension
  simp only [h, parts, List.dropLast_concat, joined]
  apply components_ofComponents
  constructor
  · intro text member
    rcases List.mem_append.mp member with old | new
    · exact spelled.isName text (List.mem_append_left _ old)
    · cases List.mem_singleton.mp new
      exact isName_withExtension isName
  · intro part member
    cases front with
    | nil => cases member
    | cons first more =>
      rcases List.mem_append.mp member with old | new
      · exact spelled.inner part (List.mem_append_left _ old)
      · cases List.mem_singleton.mp new
        exact ⟨nofun, nofun⟩

theorem join_of_isAbsolute {base tail : String} (absolute : isAbsolute tail = true) :
    join base tail = tail := by
  rw [join, if_pos absolute]

end Path

end StyleMonitor
