import Mathlib.Data.List.Basic
import StyleMonitor.Diagnostics
import StyleMonitor.Proofs.Path

/-!
# What is shown of a path

A path is shown what was published for it last, under whatever spelling. The lemmas here say what
each operation on diagnostics does to what is shown of a path, and to the number of all
diagnostics.
-/

namespace StyleMonitor.Diagnostics

variable {store : Diagnostics} {path other : String}

theorem get?_cons (key : String) (list : List Diagnostic) (files : List (String × List Diagnostic))
    (disposed : Bool) (path : String) :
    get? ⟨(key, list) :: files, disposed⟩ path =
      if Path.same key path then some list else get? ⟨files, disposed⟩ path := by
  by_cases same : Path.same key path = true
  · simp [get?, same]
  · simp [get?, same]

theorem get?_setPath (list : List Diagnostic) (files : List (String × List Diagnostic))
    (disposed : Bool) :
    get? ⟨setPath path list files, disposed⟩ other =
      if Path.same path other then some list else get? ⟨files, disposed⟩ other := by
  induction files with
  | nil => rw [setPath, get?_cons]
  | cons entry files ih =>
    obtain ⟨key, old⟩ := entry
    rw [setPath, get?_cons]
    by_cases found : Path.same key path = true
    · rw [if_pos found, get?_cons, Path.same_congr_left found]
      split <;> rfl
    · rw [if_neg found, get?_cons, ih]
      by_cases here : Path.same key other = true
      · have apart : ¬ Path.same path other = true := by
          intro there
          exact found (Path.same_trans here (by rw [Path.same_comm, there]))
        rw [if_pos here, if_neg apart, if_pos here]
      · rw [if_neg here, if_neg here]

/-- A path is shown what was published for it last. -/
theorem get?_update {findings : List Finding} (takes : store.disposed = false)
    (some : findings ≠ []) (path other : String) :
    (store.update path findings).get? other =
      if Path.same path other then .some (findings.map Diagnostic.ofFinding)
      else store.get? other := by
  rw [update, if_neg (by simp [takes]), if_neg some]
  exact get?_setPath _ store.files store.disposed

theorem total_setPath (path : String) (list : List Diagnostic)
    (files : List (String × List Diagnostic)) (disposed : Bool) :
    total ⟨setPath path list files, disposed⟩ +
        ((get? ⟨files, disposed⟩ path).getD []).length =
      total ⟨files, disposed⟩ + list.length := by
  induction files with
  | nil => simp [setPath, total, get?]
  | cons entry files ih =>
    obtain ⟨key, old⟩ := entry
    rw [setPath, get?_cons]
    simp only [total] at ih ⊢
    split
    · simp only [List.flatMap_cons, List.length_append, Option.getD_some]
      omega
    · simp only [List.flatMap_cons, List.length_append]
      omega

/-- What is published for a path takes the place of what it was shown before. -/
theorem total_update {findings : List Finding} (takes : store.disposed = false)
    (some : findings ≠ []) (path : String) :
    (store.update path findings).total + ((store.get? path).getD []).length =
      store.total + findings.length := by
  have h := total_setPath path (findings.map Diagnostic.ofFinding) store.files store.disposed
  rw [List.length_map] at h
  rw [update, if_neg (by simp [takes]), if_neg some]
  exact h

/-- A list that is set at a path stands there, or at the spelling of it that came first, and all
others stay. -/
theorem mem_setPath {list : List Diagnostic} {files : List (String × List Diagnostic)}
    {entry : String × List Diagnostic} (member : entry ∈ setPath path list files) :
    entry ∈ files ∨ entry.2 = list ∧ (entry.1 = path ∨ ∃ old, (entry.1, old) ∈ files) := by
  induction files with
  | nil => exact Or.inr (by simp_all [setPath])
  | cons first rest ih =>
    obtain ⟨key, old⟩ := first
    rw [setPath] at member
    split at member
    · rcases List.mem_cons.mp member with rfl | later
      · exact Or.inr ⟨rfl, Or.inr ⟨old, List.mem_cons_self⟩⟩
      · exact Or.inl (List.mem_cons_of_mem _ later)
    · rcases List.mem_cons.mp member with rfl | later
      · exact Or.inl List.mem_cons_self
      · rcases ih later with there | ⟨set, rfl | ⟨older, listed⟩⟩
        · exact Or.inl (List.mem_cons_of_mem _ there)
        · exact Or.inr ⟨set, Or.inl rfl⟩
        · exact Or.inr ⟨set, Or.inr ⟨older, List.mem_cons_of_mem _ listed⟩⟩

/-- Publishing for a path adds no other to those that are listed. -/
theorem mem_update {findings : List Finding} {entry : String × List Diagnostic}
    (member : entry ∈ (store.update path findings).files) :
    (∃ list, (entry.1, list) ∈ store.files) ∨ entry.1 = path := by
  unfold update at member
  split at member
  · exact Or.inl ⟨entry.2, member⟩
  split at member
  · exact Or.inl ⟨entry.2, List.mem_of_mem_filter member⟩
  · rcases mem_setPath member with there | ⟨-, named | listed⟩
    · exact Or.inl ⟨entry.2, there⟩
    · exact Or.inr named
    · exact Or.inl listed

/-- Every diagnostic has a line of its own. -/
theorem length_lines (store : Diagnostics) (root : String) :
    (store.lines root).length = store.total := by
  have order : store.snapshot.Perm store.files := List.mergeSort_perm _ _
  have lines : (store.lines root).length =
      (store.snapshot.flatMap fun entry => entry.2).length := by
    simp [lines, List.length_flatMap]
  rw [lines, total, (order.flatMap_right _).length_eq]

end StyleMonitor.Diagnostics
