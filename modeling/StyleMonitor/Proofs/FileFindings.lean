import StyleMonitor.FileFindings

/-!
# What findings by file hold

A path has one list. Adding a finding extends the list of its path and leaves every other list
alone; so the lists hold what was added, each finding once and in the order in which it came.
-/

namespace StyleMonitor.FileFindings

variable {findings : FileFindings} {path other : String} {finding : Finding}
  {files : List (String × List Finding)}

theorem lookup_alterList_of_ne (change : List Finding → List Finding) (apart : other ≠ path)
    (files : List (String × List Finding)) :
    (alterList path change files).lookup other = files.lookup other := by
  have differs : (other == path) = false := by simpa using apart
  induction files with
  | nil => simp [alterList, List.lookup_cons, differs]
  | cons head rest ih =>
    obtain ⟨key, list⟩ := head
    rw [alterList]
    split
    · next same => simp [List.lookup_cons, same, differs]
    · simp only [List.lookup_cons, ih]

/-- Adding a finding leaves the lists of other paths alone. -/
theorem get?_push_of_ne (apart : other ≠ path) :
    (findings.push path finding).get? other = findings.get? other :=
  lookup_alterList_of_ne _ apart findings.files

theorem mem_keys_alterList {change : List Finding → List Finding}
    {files : List (String × List Finding)} (h : other ∈ (alterList path change files).map (·.1)) :
    other ∈ files.map (·.1) ∨ other = path := by
  induction files with
  | nil => exact Or.inr (by simpa [alterList] using h)
  | cons head rest ih =>
    obtain ⟨key, list⟩ := head
    rw [alterList] at h
    split at h
    · exact Or.inl h
    · rcases List.mem_cons.mp h with rfl | h
      · exact Or.inl List.mem_cons_self
      · exact (ih h).imp_left (List.mem_cons_of_mem _)

/-- No path is listed twice. -/
def Distinct (findings : FileFindings) : Prop :=
  (findings.files.map (·.1)).Nodup

theorem distinct_empty : Distinct empty := List.nodup_nil

theorem Distinct.push (distinct : findings.Distinct) (path : String) (finding : Finding) :
    (findings.push path finding).Distinct := by
  obtain ⟨files⟩ := findings
  simp only [Distinct, FileFindings.push] at distinct ⊢
  induction files with
  | nil => simp [alterList]
  | cons head rest ih =>
    obtain ⟨key, list⟩ := head
    obtain ⟨new, distinct⟩ := List.nodup_cons.mp distinct
    rw [alterList]
    split
    · exact List.nodup_cons.mpr ⟨new, distinct⟩
    · next apart =>
      refine List.nodup_cons.mpr ⟨?_, ih distinct⟩
      intro member
      rcases mem_keys_alterList member with listed | same
      · exact new listed
      · exact apart same

/-- In findings that list no path twice, a path has the list that stands beside it. -/
theorem Distinct.get?_eq_some_iff (distinct : findings.Distinct) {list : List Finding} :
    findings.get? path = some list ↔ (path, list) ∈ findings.files := by
  obtain ⟨files⟩ := findings
  simp only [Distinct, get?] at distinct ⊢
  induction files with
  | nil => simp
  | cons head rest ih =>
    obtain ⟨key, own⟩ := head
    obtain ⟨new, distinct⟩ := List.nodup_cons.mp distinct
    by_cases same : path = key
    · subst same
      have fresh : (path, list) ∉ rest := fun member => new (List.mem_map.mpr ⟨_, member, rfl⟩)
      simp [fresh, eq_comm]
    · have differs : (path == key) = false := by simpa using same
      simp [List.lookup_cons, differs, ih distinct, same]

theorem Distinct.of_perm (distinct : findings.Distinct) (order : files.Perm findings.files) :
    Distinct ⟨files⟩ := by
  have keys : (files.map (·.1)).Perm (findings.files.map (·.1)) := order.map _
  exact keys.nodup_iff.mpr distinct

/-- What has the same lists holds the same findings, in whatever order the paths stand. -/
theorem Distinct.get?_eq_of_perm (distinct : findings.Distinct)
    (order : files.Perm findings.files) (path : String) :
    get? ⟨files⟩ path = findings.get? path := by
  have also := distinct.of_perm order
  ext list
  rw [also.get?_eq_some_iff, distinct.get?_eq_some_iff, order.mem_iff]

/-- Adding a finding makes it one more. -/
@[simp] theorem totalCount_push (findings : FileFindings) (path : String) (finding : Finding) :
    (findings.push path finding).totalCount = findings.totalCount + 1 := by
  obtain ⟨files⟩ := findings
  simp only [totalCount, FileFindings.push]
  induction files with
  | nil => simp [alterList]
  | cons head rest ih =>
    obtain ⟨key, list⟩ := head
    rw [alterList]
    split
    · simp only [List.flatMap_cons, List.length_append, List.length_singleton]
      omega
    · simp only [List.flatMap_cons, List.length_append] at ih ⊢
      omega

/-- A list that is given to a new path stands last. -/
theorem replace_of_new (new : path ∉ files.map (·.1)) (list : List Finding) :
    replace ⟨files⟩ path list = ⟨files ++ [(path, list)]⟩ := by
  induction files with
  | nil => rfl
  | cons file rest ih =>
    obtain ⟨other, old⟩ := file
    simp only [List.map_cons, List.mem_cons, not_or] at new
    have later := congrArg FileFindings.files (ih new.2)
    simp only [replace] at later
    simp only [replace, alterList, if_neg (Ne.symm new.1), later, List.cons_append]

theorem foldl_replace (earlier : List (String × List Finding))
    (distinct : ((earlier ++ files).map (·.1)).Nodup) :
    files.foldl (fun findings (path, list) => FileFindings.replace findings path list) ⟨earlier⟩ =
      (⟨earlier ++ files⟩ : FileFindings) := by
  induction files generalizing earlier with
  | nil => simp
  | cons file rest ih =>
    obtain ⟨path, list⟩ := file
    have new : path ∉ earlier.map (·.1) := by
      rw [List.map_append, List.nodup_append] at distinct
      exact fun member => distinct.2.2 path member path (by simp) rfl
    simp only [List.foldl_cons, replace_of_new new]
    rw [ih _ (by simpa using distinct), List.append_assoc, List.singleton_append]

end StyleMonitor.FileFindings
