import Mathlib.Data.List.Nodup
import StyleMonitor.Proofs.Toml.Meaning

/-!
# Records from tables

Where the fields of a record are set independently of each other, what is read from a table does not
depend on the order in which they are written: it is what is read field by field.
-/

namespace StyleMonitor

namespace Toml.Value

variable {ρ : Type} {fields : List (String × (ρ → Value → Option ρ))}

/-- Whether fields have different names and can be set in any order. -/
def Independent (fields : List (String × (ρ → Value → Option ρ))) : Prop :=
  fields.Pairwise fun first second => first.1 ≠ second.1 ∧
    ∀ record value other, (first.2 record value).bind (second.2 · other) =
      (second.2 record other).bind (first.2 · value)

/-- Takes the value of a field into a record, if there is one. -/
def takeField (find : String → Option Value) (field : String × (ρ → Value → Option ρ))
    (record : ρ) : Option ρ :=
  match find field.1 with
  | none => some record
  | some value => field.2 record value

/-- Takes the values of fields into a record, field by field. -/
def takeFields (find : String → Option Value) :
    List (String × (ρ → Value → Option ρ)) → ρ → Option ρ
  | [], record => some record
  | field :: fields, record => (takeField find field record).bind (takeFields find fields)

theorem takeFields_congr {find find' : String → Option Value}
    (same : ∀ field ∈ fields, ∀ record, takeField find field record = takeField find' field record) :
    takeFields find fields = takeFields find' fields := by
  induction fields with
  | nil => rfl
  | cons field fields ih =>
    rw [List.forall_mem_cons] at same
    funext record
    rw [takeFields, takeFields, same.1, ih same.2]

theorem takeField_congr {find find' : String → Option Value} {field : String × (ρ → Value → Option ρ)}
    (same : find field.1 = find' field.1) (record : ρ) :
    takeField find field record = takeField find' field record := by
  rw [takeField, takeField, same]

theorem takeField_none {find : String → Option Value} {field : String × (ρ → Value → Option ρ)}
    (absent : find field.1 = none) (record : ρ) : takeField find field record = some record := by
  rw [takeField, absent]

theorem takeFields_none {find : String → Option Value}
    (absent : ∀ field ∈ fields, find field.1 = none) : takeFields find fields = some := by
  induction fields with
  | nil => rfl
  | cons field fields ih =>
    rw [List.forall_mem_cons] at absent
    funext record
    rw [takeFields, takeField_none absent.1, ih absent.2, Option.bind_some]

/-- A value of one more field can be put in first. -/
theorem takeFields_update (independent : Independent fields) {find : String → Option Value}
    {name : String} {put : ρ → Value → Option ρ} (field : fields.lookup name = some put)
    (absent : find name = none) (value : Value) (record : ρ) :
    takeFields (Function.update find name (some value)) fields record =
      (put record value).bind (takeFields find fields) := by
  induction fields generalizing record with
  | nil => cases field
  | cons own fields ih =>
    obtain ⟨other, putOther⟩ := own
    obtain ⟨apart, independent⟩ := List.pairwise_cons.mp independent
    by_cases same : name = other
    · subst same
      rw [List.lookup_cons_self, Option.some.injEq] at field
      subst field
      have later : takeFields (Function.update find name (some value)) fields =
          takeFields find fields := by
        refine takeFields_congr fun f mem => takeField_congr ?_
        rw [Function.update_of_ne (apart f mem).1.symm]
      have unset : takeFields find ((name, putOther) :: fields) = takeFields find fields := by
        funext record
        rw [takeFields, takeField_none absent, Option.bind_some]
      rw [takeFields, takeField, Function.update_self, later, unset]
    · rw [List.lookup_cons, beq_eq_false_iff_ne.mpr same] at field
      have isField : (name, put) ∈ fields := by
        obtain ⟨before, after, rfl, -⟩ := List.lookup_eq_some_iff.mp field
        simp
      have later : takeFields (Function.update find name (some value)) fields =
          fun record => (put record value).bind (takeFields find fields) :=
        funext fun record => ih independent field record
      rw [takeFields, later, takeField, Function.update_of_ne (Ne.symm same)]
      cases found : find other with
      | none =>
        rw [Option.bind_some]
        congr 1
        funext record
        rw [takeFields, takeField_none found, Option.bind_some]
      | some written =>
        show (putOther record written).bind _ = _
        rw [← Option.bind_assoc, (apart (name, put) isField).2 record written value, Option.bind_assoc]
        congr 1
        funext record
        rw [takeFields, takeField, found]

/-- What is taken from the members of a table is what is taken field by field, if the other members
are let pass. -/
theorem takeMembers_eq (independent : Independent fields) {members : List (String × Value)}
    (names : (members.map (·.1)).Nodup) (record : ρ) :
    takeMembers fields members record =
      if ∀ member ∈ members, fields.lookup member.1 = none → member.2.isSkippable = true then
        takeFields (fun name => members.lookup name) fields record
      else none := by
  induction members generalizing record with
  | nil =>
    rw [if_pos (List.forall_mem_nil _), takeMembers, takeFields_none]
    exact fun _ _ => rfl
  | cons member members ih =>
    obtain ⟨name, value⟩ := member
    rw [List.map_cons, List.nodup_cons] at names
    have find : (fun other => ((name, value) :: members).lookup other) =
        Function.update (fun other => members.lookup other) name (some value) := by
      funext other
      by_cases same : other = name
      · rw [same, List.lookup_cons_self, Function.update_self]
      · rw [List.lookup_cons, beq_eq_false_iff_ne.mpr same, Function.update_of_ne same]
    rw [takeMembers, find]
    simp only [List.forall_mem_cons]
    cases known : fields.lookup name with
    | some put =>
      have absent : members.lookup name = none := by
        rw [List.lookup_eq_none_iff]
        intro member mem
        rw [bne_iff_ne]
        intro same
        exact names.1 (List.mem_map.mpr ⟨member, mem, same.symm⟩)
      rw [takeFields_update independent known absent]
      show (put record value).bind _ = _
      rw [funext fun later => ih names.2 later]
      by_cases pass : ∀ member ∈ members, fields.lookup member.1 = none → member.2.isSkippable = true
      · rw [if_pos ⟨nofun, pass⟩, funext fun later => if_pos pass]
      · rw [if_neg (fun both => pass both.2), funext fun later => if_neg pass, Option.bind_fun_none]
    | none =>
      have unasked : takeFields (Function.update (fun other => members.lookup other) name (some value))
          fields = takeFields (fun other => members.lookup other) fields := by
        refine takeFields_congr fun field mem => takeField_congr ?_
        have other := List.lookup_eq_none_iff.mp known field mem
        rw [bne_iff_ne] at other
        rw [Function.update_of_ne (Ne.symm other)]
      rw [unasked]
      show (if value.isSkippable then takeMembers fields members record else none) = _
      rw [ih names.2 record]
      by_cases skip : value.isSkippable = true
      · rw [if_pos skip]
        refine if_congr ⟨fun pass => ⟨fun _ => skip, pass⟩, And.right⟩ rfl rfl
      · rw [if_neg skip, if_neg fun both => skip (both.1 rfl)]

/-! ### What a shape determines -/

theorem lookup_memberValues (members : Members) (name : String) :
    (memberValues members).lookup name = (members.get? name).map Item.value := by
  induction members with
  | nil => rfl
  | cons member rest ih =>
    obtain ⟨key, item⟩ := member
    rw [memberValues, List.lookup_cons, Members.get?_cons, ih]
    by_cases same : name = key.name
    · subst same
      rw [if_pos rfl, beq_self_eq_true]
      rfl
    · rw [if_neg (Ne.symm same), beq_eq_false_iff_ne.mpr same]

theorem names_memberValues (members : Members) :
    (memberValues members).map (·.1) = members.map (·.1.name) := by
  induction members with
  | nil => rfl
  | cons member rest ih => rw [memberValues, List.map_cons, ih, List.map_cons]

theorem forall_memberValues {members : Members} {P : String × Value → Prop} :
    (∀ member ∈ memberValues members, P member) ↔
      ∀ member ∈ members, P (member.1.name, member.2.value) := by
  induction members with
  | nil => exact ⟨fun _ => List.forall_mem_nil _, fun _ => List.forall_mem_nil _⟩
  | cons member rest ih => rw [memberValues, List.forall_mem_cons, ih, List.forall_mem_cons]

/-- What a name stands for in tables of one shape is of one shape. -/
theorem get?_same {members others : Members} (same : memberShapes members = memberShapes others)
    (name : String) : (members.get? name).map Item.shape = (others.get? name).map Item.shape := by
  rw [← memberShapes_apply, ← memberShapes_apply, same]

theorem passes_of_same {members others : Members} (distinct : members.Distinct)
    (distinct' : others.Distinct) (same : memberShapes members = memberShapes others)
    (pass : ∀ member ∈ members, fields.lookup member.1.name = none →
      member.2.value.isSkippable = true) :
    ∀ member ∈ others, fields.lookup member.1.name = none → member.2.value.isSkippable = true := by
  intro member mem unknown
  have shapes := get?_same same member.1.name
  rw [Members.get?_of_mem distinct'.1 (show (member.1, member.2) ∈ others from mem), Option.map_some,
    Option.map_eq_some_iff] at shapes
  obtain ⟨item, found, shape⟩ := shapes
  obtain ⟨key, mem', named⟩ := Members.mem_of_get? found
  rw [← determined_isSkippable (distinct.2 _ mem') (distinct'.2 _ mem) shape]
  exact pass _ mem' (by rw [named, unknown])

/-- What is taken from a table is the same for all tables of one shape. -/
theorem determined_takeMembers (independent : Independent fields)
    (each : ∀ field ∈ fields, ∀ record, Determined (field.2 record)) (record : ρ) :
    DeterminedMembers fun members => takeMembers fields members record := by
  intro members others distinct distinct' same
  show takeMembers fields (memberValues members) record = takeMembers fields (memberValues others) record
  rw [takeMembers_eq independent (by rw [names_memberValues]; exact distinct.1),
    takeMembers_eq independent (by rw [names_memberValues]; exact distinct'.1)]
  refine if_congr ?_ ?_ rfl
  · rw [forall_memberValues, forall_memberValues]
    exact ⟨passes_of_same distinct distinct' same, passes_of_same distinct' distinct same.symm⟩
  · refine congrFun (takeFields_congr fun field mem later => ?_) record
    have shapes := get?_same same field.1
    rw [takeField, takeField, lookup_memberValues, lookup_memberValues]
    cases found : members.get? field.1 with
    | none =>
      rw [found, Option.map_none, eq_comm, Option.map_eq_none_iff] at shapes
      rw [shapes]
    | some item =>
      rw [found, Option.map_some, eq_comm, Option.map_eq_some_iff] at shapes
      obtain ⟨other, found', shape⟩ := shapes
      obtain ⟨key, mem', -⟩ := Members.mem_of_get? found
      obtain ⟨key', mem'', -⟩ := Members.mem_of_get? found'
      rw [found']
      exact each field mem later (distinct.2 _ mem') (distinct'.2 _ mem'') shape.symm

theorem determined_takeItems (each : ∀ field ∈ fields, ∀ record, Determined (field.2 record))
    (record : ρ) : DeterminedItems fun items => takeItems fields items record := by
  intro items others distinct distinct' same
  show takeItems fields (items.map Item.value) record = takeItems fields (others.map Item.value) record
  induction fields generalizing items others record with
  | nil => rfl
  | cons field fields ih =>
    rw [List.forall_mem_cons] at each
    cases items with
    | nil =>
      cases others with
      | nil => rfl
      | cons => cases same
    | cons item items =>
      cases others with
      | nil => cases same
      | cons other others =>
        rw [List.map_cons, List.map_cons, List.cons.injEq] at same
        rw [List.forall_mem_cons] at distinct distinct'
        rw [List.map_cons, List.map_cons, takeItems, takeItems,
          each.1 record distinct.1 distinct'.1 same.1]
        congr 1
        funext later
        exact ih each.2 later distinct.2 distinct'.2 same.2

/-- A record is the same for all trees of one shape. -/
theorem determined_asRecord (independent : Independent fields)
    (each : ∀ field ∈ fields, ∀ record, Determined (field.2 record)) (start : ρ) :
    Determined (asRecord fields start) :=
  .of_parts (determined_takeItems each start) (determined_takeMembers independent each start)

end Toml.Value

end StyleMonitor
