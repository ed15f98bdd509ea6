import Mathlib.Data.List.Induction
import Mathlib.Data.String.Basic
import StyleMonitor.Freshness
import StyleMonitor.Proofs.Json.RoundTrip

/-!
# Tables of last pulls

A table is sorted by its keys, so it holds each key once. Its text is read back as the same table,
and of a text in which a key comes twice the last value counts.
-/

namespace StyleMonitor.PullTable

variable {table : PullTable} {key other : String} {millis : Nat}

theorem lookup_insert (key : String) (millis : Nat) (table : PullTable) (other : String) :
    (insert key millis table).lookup other =
      if other = key then some millis else table.lookup other := by
  induction table with
  | nil =>
    by_cases same : other = key
    · simp [insert, same]
    · have differs : (other == key) = false := by simpa using same
      simp [insert, List.lookup_cons, differs, same]
  | cons entry rest ih =>
    obtain ⟨listed, value⟩ := entry
    rw [insert]
    by_cases same : other = key
    · subst same
      split
      · simp
      split
      · simp
      · next apart _ =>
        have differs : (other == listed) = false := by simpa using Ne.symm apart
        simp [List.lookup_cons, differs, ih]
    · have differs : (other == key) = false := by simpa using same
      split
      · next here =>
        subst here
        simp [List.lookup_cons, differs]
      split
      · simp [List.lookup_cons, differs]
      · simp only [List.lookup_cons, ih, if_neg same]

theorem lookup_erase (key : String) (table : PullTable) (other : String) :
    (erase key table).lookup other = if other = key then none else table.lookup other := by
  induction table with
  | nil => simp [erase]
  | cons entry rest ih =>
    obtain ⟨listed, value⟩ := entry
    rw [erase] at ih
    by_cases gone : listed = key
    · subst gone
      rw [erase, List.filter_cons_of_neg (by simp), ih]
      split
      · rfl
      · next apart =>
        have differs : (other == listed) = false := by simpa using apart
        rw [List.lookup_cons, differs]
    · rw [erase, List.filter_cons_of_pos (by simpa using gone), List.lookup_cons, List.lookup_cons,
        ih]
      by_cases here : other = listed
      · subst here
        simp [gone]
      · have differs : (other == listed) = false := by simpa using here
        rw [differs]

/-- Of a key that is put in twice the last value counts. -/
theorem lookup_foldl_insert (members : List (String × Nat)) (key : String) :
    (members.foldl (fun table (key, millis) => insert key millis table) []).lookup key =
      members.reverse.lookup key := by
  induction members using List.reverseRecOn with
  | nil => rfl
  | append_singleton earlier last ih =>
    rw [List.foldl_append, List.foldl_cons, List.foldl_nil, lookup_insert, List.reverse_append,
      List.reverse_singleton, List.singleton_append, List.lookup_cons, ih]
    by_cases same : key = last.1
    · simp [same]
    · have differs : (key == last.1) = false := by simpa using same
      rw [if_neg same, differs]

/-- Keys are sorted, and values are numbers of 64 bits. -/
structure Sound (table : PullTable) : Prop where
  sorted : table.Pairwise fun first second => first.1 < second.1
  small : ∀ entry ∈ table, entry.2 < Nat.pow 2 64

theorem Sound.nil : Sound [] := ⟨List.Pairwise.nil, nofun⟩

theorem mem_insert {entry : String × Nat} (member : entry ∈ insert key millis table) :
    entry = (key, millis) ∨ entry ∈ table := by
  induction table with
  | nil => exact Or.inl (List.mem_singleton.mp member)
  | cons head rest ih =>
    obtain ⟨listed, value⟩ := head
    rw [insert] at member
    split at member
    · rcases List.mem_cons.mp member with same | later
      · exact Or.inl same
      · exact Or.inr (List.mem_cons_of_mem _ later)
    split at member
    · exact (List.mem_cons.mp member).imp_right id
    · rcases List.mem_cons.mp member with same | later
      · exact Or.inr (same ▸ List.mem_cons_self)
      · exact (ih later).imp_right (List.mem_cons_of_mem _)

theorem Sound.insert (sound : Sound table) (key : String) {millis : Nat}
    (small : millis < Nat.pow 2 64) : Sound (PullTable.insert key millis table) := by
  refine ⟨?_, ?_⟩
  · obtain ⟨sorted, -⟩ := sound
    induction table with
    | nil => exact List.pairwise_singleton _ _
    | cons head rest ih =>
      obtain ⟨listed, value⟩ := head
      obtain ⟨above, sorted⟩ := List.pairwise_cons.mp sorted
      rw [PullTable.insert]
      split
      · next same =>
        subst same
        exact List.pairwise_cons.mpr ⟨above, sorted⟩
      split
      · next before =>
        refine List.pairwise_cons.mpr ⟨?_, List.pairwise_cons.mpr ⟨above, sorted⟩⟩
        intro entry member
        rcases List.mem_cons.mp member with rfl | later
        · exact before
        · exact String.lt_trans before (above entry later)
      · next apart after =>
        refine List.pairwise_cons.mpr ⟨?_, ih sorted⟩
        intro entry member
        rcases mem_insert member with rfl | later
        · exact (lt_trichotomy key listed).resolve_left after |>.resolve_left (Ne.symm apart)
        · exact above entry later
  · intro entry member
    rcases mem_insert member with rfl | old
    · exact small
    · exact sound.small entry old

theorem Sound.erase (sound : Sound table) (key : String) : Sound (PullTable.erase key table) :=
  ⟨sound.sorted.filter _, fun entry member => sound.small entry (List.mem_of_mem_filter member)⟩

theorem sound_foldl_insert {members : List (String × Nat)}
    (small : ∀ member ∈ members, member.2 < Nat.pow 2 64) :
    Sound (members.foldl (fun table (key, millis) => insert key millis table) []) := by
  induction members using List.reverseRecOn with
  | nil => exact .nil
  | append_singleton earlier last ih =>
    rw [List.foldl_append, List.foldl_cons, List.foldl_nil]
    exact (ih fun member there => small member (List.mem_append_left _ there)).insert _
      (small last (by simp))

/-- Entries that come in order are put at the end one by one. -/
theorem foldl_insert_of_sorted (sorted : table.Pairwise fun first second => first.1 < second.1) :
    table.foldl (fun table (key, millis) => insert key millis table) [] = table := by
  have last : ∀ (front : PullTable) (entry : String × Nat), (∀ old ∈ front, old.1 < entry.1) →
      insert entry.1 entry.2 front = front ++ [entry] := by
    intro front entry below
    induction front with
    | nil => rfl
    | cons head rest ih =>
      obtain ⟨listed, value⟩ := head
      have before : listed < entry.1 := below _ List.mem_cons_self
      rw [insert, if_neg before.ne, if_neg (String.lt_asymm before),
        ih fun old there => below old (List.mem_cons_of_mem _ there)]
      rfl
  induction table using List.reverseRecOn with
  | nil => rfl
  | append_singleton earlier entry ih =>
    obtain ⟨sorted, -, below⟩ := List.pairwise_append.mp sorted
    rw [List.foldl_append, List.foldl_cons, List.foldl_nil, ih sorted]
    exact last earlier entry fun old there => below old there entry (List.mem_singleton_self _)

theorem lt_of_asNatBelow {limit value : Nat} {node : Json.Node}
    (h : Json.Node.asNatBelow limit node = .ok value) : value < limit := by
  cases node with
  | number n =>
    simp only [Json.Node.asNatBelow] at h
    split at h
    · next found =>
      cases h
      simp only [Json.Number.natBelow?] at found
      split at found
      · next fits =>
        cases found
        exact fits.2.2
      · cases found
    · cases h
  | _ => cases h

theorem lt_of_mapM_memberOf {limit : Nat}
    {written : List (Except Json.Fault String × Json.Node)} {members : List (String × Nat)}
    (h : written.mapM (Json.memberOf (Json.Node.asNatBelow limit)) = .ok members) :
    ∀ member ∈ members, member.2 < limit := by
  induction written generalizing members with
  | nil =>
    cases h
    nofun
  | cons first rest ih =>
    obtain ⟨key, node⟩ := first
    rw [List.mapM_cons] at h
    cases key with
    | error fault => cases h
    | ok key =>
      cases value : Json.Node.asNatBelow limit node with
      | error fault =>
        simp only [Json.memberOf, value] at h
        cases h
      | ok number =>
        cases others : rest.mapM (Json.memberOf (Json.Node.asNatBelow limit)) with
        | error fault =>
          simp only [Json.memberOf, value, others] at h
          cases h
        | ok more =>
          simp only [Json.memberOf, value, others] at h
          cases h
          intro member there
          rcases List.mem_cons.mp there with rfl | later
          · exact lt_of_asNatBelow value
          · exact ih others member later

theorem lt_of_asMembers {limit : Nat} {node : Json.Node} {members : List (String × Nat)}
    (h : Json.Node.asMembers (Json.Node.asNatBelow limit) node = .ok members) :
    ∀ member ∈ members, member.2 < limit := by
  cases node with
  | object written ending =>
    rw [Json.asMembers_object] at h
    cases read : written.mapM (Json.memberOf (Json.Node.asNatBelow limit)) with
    | error fault =>
      rw [read] at h
      cases h
    | ok pairs =>
      rw [read] at h
      cases ending with
      | closed =>
        cases h
        exact lt_of_mapM_memberOf read
      | stopped gap afterComma => cases h
  | _ => cases h

/-- The members that a text holds, in the order in which they are written. -/
def members? (text : String) : Option (List (String × Nat)) :=
  (Json.decode (Json.Node.asMembers (Json.Node.asNatBelow (Nat.pow 2 64))) text).toOption

/-- The table of a text is sound, and of each key it holds what the text says last. -/
theorem lookup_ofText? (text key : String) :
    Sound ((ofText? text).getD []) ∧
      ((ofText? text).getD []).lookup key =
        (members? text).bind fun members => members.reverse.lookup key := by
  simp only [ofText?, members?]
  cases read : Json.decode (Json.Node.asMembers (Json.Node.asNatBelow (Nat.pow 2 64))) text with
  | error fault => exact ⟨.nil, rfl⟩
  | ok members =>
    have small : ∀ member ∈ members, member.2 < Nat.pow 2 64 := by
      simp only [Json.decode] at read
      split at read
      · cases read
      · next value found =>
        split at read
        · cases read
        · cases read
          exact lt_of_asMembers found
    exact ⟨sound_foldl_insert small, lookup_foldl_insert members key⟩

/-- The text of a table is read back as that table. -/
theorem ofText?_text (sound : Sound table) : ofText? table.text = some table := by
  have read := Json.decode_writeObjectLines sound.small
  simp only [ofText?, PullTable.text, read]
  rw [foldl_insert_of_sorted sound.sorted]

end StyleMonitor.PullTable
