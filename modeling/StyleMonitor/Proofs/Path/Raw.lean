import StyleMonitor.Path.Raw
import StyleMonitor.Proofs.Disk.Absolute
import StyleMonitor.Proofs.Text.Bytes

/-!
# Paths that are texts

A path that is a text is made absolute in the same way as the text: the bytes of a character that is
no slash hold no slash, so the pieces of the path are those of the text.
-/

namespace StyleMonitor

namespace Text

section
variable {α : Type} [DecidableEq α] {sep : α}

theorem fields_cons_of_ne {c : α} (other : c ≠ sep) (s : List α) :
    fields sep (c :: s) = (fields sep s).modifyHead (c :: ·) := by
  rw [fields, if_neg other]
  cases found : fields sep s with
  | nil => exact absurd found (fields_ne_nil sep s)
  | cons piece more => rfl

/-- A piece without a separator is the start of the first field. -/
theorem fields_prepend {piece : List α} (plain : sep ∉ piece) (s : List α) :
    fields sep (piece ++ s) = (fields sep s).modifyHead (piece ++ ·) := by
  induction piece with
  | nil => rw [List.nil_append]; cases fields sep s <;> rfl
  | cons c piece ih =>
    obtain ⟨other, plain⟩ := not_or.mp (List.mem_cons.not.mp plain)
    rw [List.cons_append, fields_cons_of_ne (Ne.symm other), ih plain, List.modifyHead_modifyHead]
    rfl

end

/-- The bytes of some characters. -/
def bytesOf (s : List Char) : Bytes :=
  s.flatMap String.utf8EncodeChar

theorem encode_eq_bytesOf (s : String) : encode s = bytesOf s.toList :=
  encode_eq s

@[simp] theorem bytesOf_nil : bytesOf [] = [] := rfl

theorem bytesOf_cons (c : Char) (s : List Char) :
    bytesOf (c :: s) = String.utf8EncodeChar c ++ bytesOf s := rfl

theorem bytesOf_append (s t : List Char) : bytesOf (s ++ t) = bytesOf s ++ bytesOf t :=
  List.flatMap_append

theorem bytesOf_injective : Function.Injective bytesOf := by
  intro s t same
  rw [← lossyChars_encodeChar s, ← lossyChars_encodeChar t]
  exact congrArg (lossyChars 0) same

theorem bytesOf_eq_nil {s : List Char} : bytesOf s = [] ↔ s = [] :=
  bytesOf_injective.eq_iff' bytesOf_nil

theorem encodeChar_slash : String.utf8EncodeChar '/' = [RawPath.slash] := by decide

/-- Of the bytes of a character, that of a slash stands for it. -/
theorem eq_slash_iff {c : Char} {byte : UInt8} (member : byte ∈ String.utf8EncodeChar c) :
    byte = RawPath.slash ↔ c = '/' := by
  constructor
  · rintro rfl
    exact eq_slash_of_mem member
  · rintro rfl
    rw [encodeChar_slash] at member
    exact List.mem_singleton.mp member

theorem encodeChar_ne_nil (c : Char) : String.utf8EncodeChar c ≠ [] := by
  intro none
  have size := String.length_utf8EncodeChar c
  rw [none] at size
  exact absurd size (Nat.ne_of_lt c.utf8Size_pos)

theorem head?_bytesOf (s : List Char) :
    (bytesOf s).head? = some RawPath.slash ↔ s.head? = some '/' := by
  cases s with
  | nil => simp
  | cons c s =>
    obtain ⟨byte, piece, bytes⟩ := List.exists_cons_of_ne_nil (encodeChar_ne_nil c)
    have same := eq_slash_iff (bytes ▸ List.mem_cons_self : byte ∈ String.utf8EncodeChar c)
    simp [bytesOf_cons, bytes, same]

theorem getLast?_bytesOf (s : List Char) :
    (bytesOf s).getLast? = some RawPath.slash ↔ s.getLast? = some '/' := by
  rcases List.eq_nil_or_concat s with rfl | ⟨front, c, rfl⟩
  · simp
  · rcases List.eq_nil_or_concat (String.utf8EncodeChar c) with none | ⟨piece, byte, bytes⟩
    · exact absurd none (encodeChar_ne_nil c)
    · have member : byte ∈ String.utf8EncodeChar c := by
        rw [bytes, List.concat_eq_append]
        exact List.mem_append_right _ List.mem_cons_self
      simp [bytesOf_append, bytesOf_cons, bytes, eq_slash_iff member]

/-- Bytes start with slashes if their text does. -/
theorem slashes_prefix_bytesOf (count : Nat) (s : List Char) :
    List.replicate count RawPath.slash <+: bytesOf s ↔ List.replicate count '/' <+: s := by
  induction count generalizing s with
  | zero => simp
  | succ count ih =>
    cases s with
    | nil => simp [List.replicate_succ]
    | cons c s =>
      by_cases slash : c = '/'
      · rw [slash, bytesOf_cons, encodeChar_slash, List.singleton_append, List.replicate_succ,
          List.replicate_succ, List.cons_prefix_cons, List.cons_prefix_cons, ih]
        simp
      · obtain ⟨byte, piece, bytes⟩ := List.exists_cons_of_ne_nil (encodeChar_ne_nil c)
        have same := eq_slash_iff (bytes ▸ List.mem_cons_self : byte ∈ String.utf8EncodeChar c)
        rw [bytesOf_cons, bytes, List.cons_append, List.replicate_succ, List.replicate_succ,
          List.cons_prefix_cons, List.cons_prefix_cons]
        exact iff_of_false (fun both => slash (same.mp both.1.symm)) fun both => slash both.1.symm

theorem fields_bytesOf (s : List Char) :
    fields RawPath.slash (bytesOf s) = (fields '/' s).map bytesOf := by
  induction s with
  | nil => rfl
  | cons c s ih =>
    rw [bytesOf_cons]
    by_cases slash : c = '/'
    · rw [slash, encodeChar_slash, List.singleton_append, fields, if_pos rfl, fields, if_pos rfl,
        List.map_cons, ih, bytesOf_nil]
    · have plain : RawPath.slash ∉ String.utf8EncodeChar c :=
        fun member => slash (eq_slash_of_mem member)
      rw [fields_prepend plain, ih, fields_cons_of_ne slash]
      cases fields '/' s <;> rfl

end Text

namespace RawPath

open Text

variable {path : String}

theorem isAbsolute_encode (path : String) : isAbsolute (encode path) = Path.isAbsolute path := by
  rw [Bool.eq_iff_iff, isAbsolute, Path.isAbsolute, encode_eq_bytesOf, beq_iff_eq, beq_iff_eq,
    head?_bytesOf]

theorem endsInSlash_encode (path : String) :
    endsInSlash (encode path) = Path.endsInSlash path := by
  rw [Bool.eq_iff_iff, endsInSlash, Path.endsInSlash, encode_eq_bytesOf, beq_iff_eq, beq_iff_eq,
    getLast?_bytesOf]

theorem encode_eq_nil : encode path = [] ↔ path = "" := by
  rw [encode_eq_bytesOf, bytesOf_eq_nil, String.toList_eq_nil_iff]

theorem push_encode {piece : String} (relative : Path.isAbsolute piece = false) (base : String) :
    push (encode base) (encode piece) = encode (Path.join base piece) := by
  rw [push, Path.join, relative, endsInSlash_encode]
  simp only [encode_eq_nil, Bool.false_eq_true, if_false]
  split
  · rw [encode_append]
  · rw [encode_append, encode_append, List.append_assoc]
    rfl

/-- The pieces of a path that lead somewhere are the steps of a walk along it. -/
theorem steps_encode (path : String) : steps (encode path) = (Disk.steps path).map encode := by
  have spelled (piece : List Char) : encode (String.ofList piece) = bytesOf piece := by
    rw [encode_eq_bytesOf, String.toList_ofList]
  have here (piece : List Char) : bytesOf piece = [dot] ↔ String.ofList piece = "." := by
    rw [bytesOf_injective.eq_iff' (show bytesOf ['.'] = [dot] by decide), ← String.toList_inj,
      String.toList_ofList]
    rfl
  rw [steps, encode_eq_bytesOf, fields_bytesOf, Disk.steps, Disk.names, Path.pieces]
  rw [List.filter_map, List.filter_map, List.map_map, List.filter_filter]
  simp only [Function.comp_def, spelled, ne_eq, bytesOf_eq_nil, here, Bool.decide_and, decide_not,
    Bool.and_comm]

theorem map_text_components (path : String) :
    (((Path.components path).filter (· ≠ .here)).filter (· ≠ .root)).map Component.text =
      Disk.steps path := by
  rw [Disk.steps_eq]
  induction Path.components path with
  | nil => rfl
  | cons part rest ih => cases part <;> simp_all [List.filterMap_cons, Component.text, Component.step?]

theorem isAbsolute_of_mem_steps {step : String} (member : step ∈ Disk.steps path) :
    Path.isAbsolute step = false := by
  rw [← map_text_components, List.mem_map] at member
  obtain ⟨part, kept, rfl⟩ := member
  simp only [List.mem_filter, decide_eq_true_eq] at kept
  refine Path.isAbsolute_text ?_ kept.2
  rintro text rfl
  exact (Path.components_spelled path).isName text kept.1.1

theorem foldl_push_encode {pieces : List String}
    (relative : ∀ piece ∈ pieces, Path.isAbsolute piece = false) (start : String) :
    (pieces.map encode).foldl push (encode start) = encode (pieces.foldl Path.join start) := by
  induction pieces generalizing start with
  | nil => rfl
  | cons piece rest ih =>
    rw [List.map_cons, List.foldl_cons, List.foldl_cons, push_encode (relative piece List.mem_cons_self),
      ih fun other later => relative other (List.mem_cons_of_mem _ later)]

/-- A path that is a text is made absolute as its text is. -/
theorem absolute?_encode (current : Option String) (path : String) :
    absolute? (current.map encode) (encode path) = (Path.absolute? current path).map encode := by
  by_cases named : path = ""
  · rw [absolute?, if_pos (encode_eq_nil.mpr named), Path.absolute?, if_pos named]
    rfl
  have slashes (count : Nat) : (List.replicate count slash).isPrefixOf (encode path) =
      (List.replicate count '/').isPrefixOf path.toList := by
    rw [Bool.eq_iff_iff, List.isPrefixOf_iff_prefix, List.isPrefixOf_iff_prefix,
      encode_eq_bytesOf, slashes_prefix_bytesOf]
  have started : (if isAbsolute (encode path) then
        some (if [slash, slash].isPrefixOf (encode path) ∧
          ¬ [slash, slash, slash].isPrefixOf (encode path) then [slash, slash] else [slash])
      else current.map encode) =
      (if Path.isAbsolute path then
        some (if "//".toList.isPrefixOf path.toList ∧ ¬ "///".toList.isPrefixOf path.toList then "//"
          else "/")
      else current).map encode := by
    rw [isAbsolute_encode, show [slash, slash].isPrefixOf _ = _ from slashes 2,
      show [slash, slash, slash].isPrefixOf _ = _ from slashes 3]
    split
    · rw [Option.map_some, apply_ite encode]
      rfl
    · rfl
  have whole (start : String) : (steps (encode path)).foldl push (encode start) =
      encode ((((Path.components path).filter (· ≠ .here)).filter (· ≠ .root)).foldl
        (fun base part => Path.join base part.text) start) := by
    rw [steps_encode, foldl_push_encode fun _ => isAbsolute_of_mem_steps, ← map_text_components,
      List.foldl_map]
  rw [absolute?, if_neg (encode_eq_nil.not.mpr named), Path.absolute?, if_neg named]
  dsimp only
  rw [started, Option.map_map, Option.map_map]
  congr 1
  funext start
  rw [Function.comp_apply, Function.comp_apply, whole, endsInSlash_encode, apply_ite encode]
  congr 1
  exact push_encode (show Path.isAbsolute "" = false from rfl) _

theorem absolute_encode (current : Option String) (path : String) :
    absolute (current.map encode) (encode path) = encode (Path.absolute current path) := by
  rw [absolute, absolute?_encode, Path.absolute]
  cases Path.absolute? current path <;> rfl

end RawPath

end StyleMonitor
