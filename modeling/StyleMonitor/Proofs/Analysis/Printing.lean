import StyleMonitor.Proofs.Analysis.Publication
import StyleMonitor.Proofs.Report.Listing

/-!
# What is printed of a run

The files of a report are published in no particular order, each under the path that it leads to
from the root, and they are listed in the order of these paths, each as it is seen from the root. If
the report spells its paths as a project does, the listing is that of the report's lines.
-/

namespace StyleMonitor

theorem forall₂_flatMap {α β γ : Type} {R : β → γ → Prop} {f : α → List β} {g : α → List γ}
    {items : List α} (each : ∀ item ∈ items, List.Forall₂ R (f item) (g item)) :
    List.Forall₂ R (items.flatMap f) (items.flatMap g) := by
  induction items with
  | nil => exact .nil
  | cons item rest ih =>
    rw [List.flatMap_cons, List.flatMap_cons]
    exact List.rel_append (each item List.mem_cons_self)
      (ih fun other later => each other (List.mem_cons_of_mem _ later))

namespace Diagnostics

theorem setPath_of_new {path : String} {list : List Diagnostic}
    {files : List (String × List Diagnostic)}
    (new : ∀ entry ∈ files, Path.same entry.1 path = false) :
    setPath path list files = files ++ [(path, list)] := by
  induction files with
  | nil => rfl
  | cons entry rest ih =>
    obtain ⟨key, old⟩ := entry
    have differs : Path.same key path = false := new (key, old) List.mem_cons_self
    rw [setPath, differs, ih fun other later => new other (List.mem_cons_of_mem _ later)]
    rfl

end Diagnostics

namespace Analysis

open Report (pathOf accepted Printed Tidy listing)

variable {exclusions : Exclusions} {text root target : String}
  {published : List (String × List Finding)}

/-- A file as it is shown when it was published. -/
def shownAs (target : String) (file : String × List Finding) : String × List Diagnostic :=
  (Path.join target file.1, file.2.map Diagnostic.ofFinding)

/-- Files that are at different paths are shown one beside the other. -/
theorem files_foldl (some : ∀ file ∈ published, file.2 ≠ [])
    (apart : published.Pairwise fun first second => sameFile target first second = false) :
    (published.foldl (showing target) {}).files = published.map (shownAs target) := by
  induction published using List.reverseRecOn with
  | nil => rfl
  | append_singleton earlier last ih =>
    obtain ⟨before, -, new⟩ := List.pairwise_append.mp apart
    have own := ih (fun file member => some file (List.mem_append_left _ member)) before
    have takes : (earlier.foldl (showing target) {}).disposed = false := disposed_foldl {} earlier
    rw [List.foldl_append, List.foldl_cons, List.foldl_nil, showing, Diagnostics.update,
      if_neg (by simp [takes]), if_neg (some last (by simp))]
    rw [Diagnostics.setPath_of_new, own, List.map_append, List.map_singleton]
    · rfl
    · rw [own]
      intro entry member
      obtain ⟨file, there, rfl⟩ := List.mem_map.mp member
      exact new file there last List.mem_cons_self

/-- The files of a report in the order of their paths. -/
def inPathOrder (files : List (String × List Finding)) : List (String × List Finding) :=
  files.mergeSort fun first second => Path.le first.1 second.1

theorem pairwise_inPathOrder (files : List (String × List Finding)) :
    (inPathOrder files).Pairwise fun first second => Path.le first.1 second.1 = true := by
  apply List.pairwise_mergeSort
  · intro one two three first second
    exact Path.le_trans first second
  · intro one two
    exact Path.le_total one.1 two.1

section Tidy

variable (tidy : Tidy exclusions text)
include tidy

theorem plain_of_file {file : String × List Finding}
    (member : file ∈ (Report.findings exclusions text).files) : Path.Plain file.1 := by
  obtain ⟨line, there, named⟩ := Report.exists_accepted member
  exact named ▸ tidy.plain line there

/-- Two files of the report are at different paths. -/
theorem eq_of_same {first second : String × List Finding}
    (here : first ∈ (Report.findings exclusions text).files)
    (there : second ∈ (Report.findings exclusions text).files)
    (same : Path.same first.1 second.1 = true) : first = second := by
  obtain ⟨one, isOne, named⟩ := Report.exists_accepted here
  obtain ⟨two, isTwo, other⟩ := Report.exists_accepted there
  have equal : first.1 = second.1 := by
    rw [← named, ← other] at same ⊢
    exact tidy.apart one isOne two isTwo same
  have distinct := (Report.parse_accounts exclusions text).distinct
  have own := distinct.get?_eq_some_iff.mpr here
  rw [equal, distinct.get?_eq_some_iff.mpr there] at own
  exact Prod.ext equal (Option.some.inj own).symm

/-- Whatever order the files come in, their order by path is the same. -/
theorem inPathOrder_eq (order : published.Perm (Report.findings exclusions text).files) :
    inPathOrder published = inPathOrder (Report.findings exclusions text).files := by
  have sorted : ∀ files, (inPathOrder files).Perm files := fun files => List.mergeSort_perm _ _
  refine List.Perm.eq_of_pairwise ?_ (pairwise_inPathOrder _) (pairwise_inPathOrder _)
    ((sorted _).trans (order.trans (sorted _).symm))
  intro first second here there before after
  exact eq_of_same tidy (order.mem_iff.mp ((sorted _).mem_iff.mp here))
    ((sorted _).mem_iff.mp there) (Path.le_antisymm_iff.mp ⟨before, after⟩)

theorem snapshot_foldl (named : target ≠ "")
    (order : published.Perm (Report.findings exclusions text).files) :
    (published.foldl (showing target) {}).snapshot =
      (inPathOrder (Report.findings exclusions text).files).map (shownAs target) := by
  have some : ∀ file ∈ published, file.2 ≠ [] := fun file member =>
    some_of_reported ⟨exclusions, text, rfl⟩ (order.mem_iff.mp member)
  have plain : ∀ file ∈ published, Path.Plain file.1 := fun file member =>
    plain_of_file tidy (order.mem_iff.mp member)
  have apart := (pairwise_apart_iff target order (nodup_of_reported ⟨exclusions, text, rfl⟩)).mpr (by
    intro first here second there same
    rw [sameFile, Path.same_join (plain_of_file tidy here) (plain_of_file tidy there) named] at same
    exact eq_of_same tidy here there same)
  rw [Diagnostics.snapshot, files_foldl some apart, ← inPathOrder_eq tidy order, inPathOrder]
  refine (List.map_mergeSort ?_).symm
  intro first here second there
  exact (Path.le_join (plain first here) (plain second there) named).symm

/-- What is shown of a report is its listing, whatever order its files were published in. -/
theorem exists_printed (root : String) (target : String)
    (same : Path.components target = Path.components root) (some : Path.components root ≠ []) :
    ∃ printed, List.Forall₂ Printed (listing exclusions text) printed ∧
      printed.length = (Report.findings exclusions text).totalCount ∧
      ∀ published : List (String × List Finding),
        published.Perm (Report.findings exclusions text).files →
        (published.foldl (showing target) {}).lines root = printed := by
  have named : target ≠ "" := by
    rintro rfl
    exact some same.symm
  refine ⟨(inPathOrder (Report.findings exclusions text).files).flatMap fun file =>
    (file.2.map Diagnostic.ofFinding).map
      (Diagnostics.Diagnostic.shown root (Path.join target file.1)), ?_, ?_, ?_⟩
  · have paths : ((Report.findings exclusions text).files.map (·.1)).mergeSort Path.le =
        (inPathOrder (Report.findings exclusions text).files).map (·.1) := by
      rw [inPathOrder, List.map_mergeSort]
      exact fun _ _ _ _ => rfl
    rw [listing, paths, List.flatMap_map]
    refine forall₂_flatMap fun file member => ?_
    have member : file ∈ (Report.findings exclusions text).files := List.mem_mergeSort.mp member
    have plain := plain_of_file tidy member
    obtain ⟨seen, found, parts⟩ : ∃ seen,
        Path.relativeTo? (Path.join target file.1) target = .some seen ∧
          Path.components seen = Path.inner file.1 :=
      Path.components_relativeTo?_join plain.relative (by rw [same]; exact some)
    rw [Path.relativeTo?_congr same] at found
    rw [List.map_map, List.forall₂_map_right_iff]
    refine (Report.forall₂_file member).imp ?_
    rintro line finding ⟨at_, said, read, rfl⟩
    refine Report.printed_of_read read ?_ found
    rw [at_, Path.same_iff, parts, Path.inner_eq_components plain.relative plain.direct]
  · have sorted : (inPathOrder (Report.findings exclusions text).files).Perm
        (Report.findings exclusions text).files := List.mergeSort_perm _ _
    rw [FileFindings.totalCount, ← (sorted.flatMap_right _).length_eq]
    simp [List.length_flatMap]
  · intro published order
    rw [Diagnostics.lines, snapshot_foldl tidy named order, List.flatMap_map]
    rfl

end Tidy

end Analysis

end StyleMonitor
