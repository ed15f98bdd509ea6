import StyleMonitor.Proofs.Settings.Records
import StyleMonitor.Proofs.Toml.Editing
import StyleMonitor.Settings.File

/-!
# Settings in an edited document

Every field of the settings is read from its own key, so giving `enabled` a value in a document gives
the settings as they were with this one field changed. Where the settings of analyses were not in a
table of their own, all others of them are the defaults afterwards.
-/

namespace StyleMonitor

open Toml Toml.Value

/-! ### Records with one field changed -/

namespace Toml.Value

variable {ρ : Type} {fields : List (String × (ρ → Value → Option ρ))} (set : ρ → ρ)

/-- What the fields take comes out changed alike where the record was changed before, if none of them
is in the way of the change. -/
theorem takeFields_map (commutes : ∀ field ∈ fields, ∀ record value,
      field.2 (set record) value = (field.2 record value).map set)
    (find : String → Option Value) (record : ρ) :
    takeFields find fields (set record) = (takeFields find fields record).map set := by
  induction fields generalizing record with
  | nil => rfl
  | cons field fields ih =>
    rw [List.forall_mem_cons] at commutes
    have first : takeField find field (set record) = (takeField find field record).map set := by
      rw [takeField, takeField]
      split
      · rfl
      · exact commutes.1 record _
    rw [takeFields, takeFields, first, Option.bind_map, Option.map_bind]
    congr 1
    funext later
    exact ih commutes.2 later

/-- A record from a table whose first field is given another value. -/
theorem asRecord_set {name : String} {put : ρ → Value → Option ρ}
    (independent : Independent ((name, put) :: fields))
    (commutes : ∀ field ∈ fields, ∀ record value,
      field.2 (set record) value = (field.2 record value).map set)
    {start : ρ} (absorbs : ∀ value record, put start value = some record → set record = set start)
    {item : Item} (puts : put start item.value = some (set start)) {members : Members}
    (names : (members.map (·.1.name)).Nodup) {result : ρ}
    (read : asRecord ((name, put) :: fields) start (.table (memberValues members)) = some result) :
    asRecord ((name, put) :: fields) start (.table (memberValues (members.set (.plain name) item))) =
      some (set result) := by
  have names' : ((members.set (.plain name) item).map (·.1.name)).Nodup := by
    rcases members.set_cases (.plain name) with
      ⟨absent, sets⟩ | ⟨before, written, old, after, whole, -, -, sets⟩
    · rw [sets, List.map_append, List.map_singleton]
      exact names.append (List.nodup_singleton _)
        (List.disjoint_singleton.mpr (Members.get?_eq_none absent))
    · rw [whole] at names
      rw [sets]
      simpa using names
  rw [asRecord, takeMembers_eq independent (by rwa [names_memberValues])] at read ⊢
  split at read
  · next pass =>
    rw [forall_memberValues] at pass
    have own : ((name, put) :: fields).lookup (Key.plain name).name = none →
        item.value.isSkippable = true := by
      rw [show (Key.plain name).name = name from rfl, List.lookup_cons_self]
      exact nofun
    rw [if_pos (forall_memberValues.mpr (Members.forall_set (P := fun name' item =>
      ((name, put) :: fields).lookup name' = none → item.value.isSkippable = true) pass own))]
    set find : String → Option Value := fun name => (memberValues members).lookup name with findDef
    have find' : (fun other => (memberValues (members.set (.plain name) item)).lookup other) =
        Function.update find name (some item.value) := by
      funext other
      rw [lookup_memberValues, Members.get?_set, show (Key.plain name).name = name from rfl]
      by_cases same : name = other
      · subst same
        rw [if_pos rfl, Function.update_self, Option.map_some]
      · rw [if_neg same, Function.update_of_ne (Ne.symm same)]
        exact (lookup_memberValues members other).symm
    have apart := (List.pairwise_cons.mp independent).1
    have later : takeFields (Function.update find name (some item.value)) fields =
        takeFields find fields := by
      refine takeFields_congr fun field mem => takeField_congr ?_
      rw [Function.update_of_ne (apart field mem).1.symm]
    rw [takeFields, Option.bind_eq_some_iff] at read
    obtain ⟨record, first, rest⟩ := read
    have same : set record = set start := by
      rw [takeField] at first
      split at first
      · rw [Option.some.inj first]
      · exact absorbs _ record first
    rw [find', takeFields, takeField, Function.update_self]
    show (put start item.value).bind _ = _
    rw [puts, Option.bind_some, later, ← same, takeFields_map set commutes, rest, Option.map_some]
  · cases read

/-- The first field of a record from a table: what is written for it, or what the record starts
with. -/
theorem first_of_asRecord {α : Type} {name : String} {put : ρ → Value → Option ρ} (get : ρ → α)
    (with_ : ρ → α → ρ) (gets : ∀ record value, get (with_ record value) = value)
    (same : ∀ record, with_ record (get record) = record)
    (independent : Independent ((name, put) :: fields))
    (commutes : ∀ field ∈ fields, ∀ record value changed,
      field.2 (with_ record changed) value = (field.2 record value).map (with_ · changed))
    {start result : ρ} {members : Members} (names : (members.map (·.1.name)).Nodup)
    (read : asRecord ((name, put) :: fields) start (.table (memberValues members)) = some result) :
    match members.get? name with
    | none => get result = get start
    | some item => (put start item.value).map get = some (get result) := by
  rw [asRecord, takeMembers_eq independent (by rwa [names_memberValues])] at read
  split at read
  · rw [takeFields, Option.bind_eq_some_iff] at read
    obtain ⟨record, first, rest⟩ := read
    have kept : get result = get record := by
      have mapped := takeFields_map (fun later => with_ later (get record))
        (fun field mem later value => commutes field mem later value _)
        (fun name => (memberValues members).lookup name) record
      rw [same, rest, Option.map_some, Option.some.injEq] at mapped
      rw [mapped, gets]
    rw [takeField, lookup_memberValues] at first
    cases found : members.get? name with
    | none =>
      rw [found] at first
      rw [kept, ← Option.some.inj first]
    | some item =>
      rw [found] at first
      show (put start item.value).map get = _
      rw [show put start item.value = some record from first, Option.map_some, kept]
  · cases read

end Toml.Value

/-! ### Settings that are independent -/

/-- Two values that are put into different places can be put there in any order. -/
theorem put_comm {τ α β : Type} {x : Option α} {y : Option β} {first : α → τ} {second : β → τ}
    {later : τ → α → τ} {next : τ → β → τ} (comm : ∀ a b, next (first a) b = later (second b) a) :
    ((x.map first).bind fun t => y.map (next t)) = (y.map second).bind fun t => x.map (later t) := by
  cases x with
  | none => cases y <;> rfl
  | some a =>
    cases y with
    | none => rfl
    | some b => exact congrArg some (comm a b)

/-- A table of settings as the fields of a record. -/
def Setting.fields {τ : Type} (settings : List (String × Setting τ)) :
    List (String × (τ → Value → Option τ)) :=
  settings.map fun (name, setting) => (name, fun table value => setting.put table value)

theorem determined_put {τ : Type} (setting : Setting τ) (table : τ) :
    Determined fun value => setting.put table value := by
  intro item other distinct distinct' same
  cases setting with
  | bool put => exact congrArg (Option.map (put table)) (determined_asBool distinct distinct' same)
  | nat put => exact congrArg (Option.map (put table)) (determined_asNat distinct distinct' same)
  | string put => exact congrArg (Option.map (put table)) (determined_asString distinct distinct' same)
  | strings put => exact congrArg (Option.map (put table)) (determined_asStrings distinct distinct' same)

theorem determined_readTable {τ : Type} {settings : List (String × Setting τ)}
    (independent : Independent (Setting.fields settings)) (start : τ) :
    Determined (Setting.readTable settings start) := by
  refine determined_asRecord independent (fun field mem table => ?_) start
  obtain ⟨setting, -, rfl⟩ := List.mem_map.mp mem
  exact determined_put setting.2 table

theorem independent_analysis : Independent (Setting.fields AnalysisSettings.table) := by
  simp only [Independent, Setting.fields, AnalysisSettings.table, List.map_cons, List.map_nil,
    List.pairwise_cons, List.forall_mem_cons, List.not_mem_nil, false_implies, implies_true,
    List.Pairwise.nil, and_true, Setting.put]
  repeat' apply And.intro
  all_goals first | decide | exact fun _ _ _ => put_comm fun _ _ => rfl

theorem independent_runner : Independent (Setting.fields RunnerSettings.table) := by
  simp only [Independent, Setting.fields, RunnerSettings.table, List.map_cons, List.map_nil,
    List.pairwise_cons, List.forall_mem_cons, List.not_mem_nil, false_implies, implies_true,
    List.Pairwise.nil, and_true, Setting.put]
  repeat' apply And.intro
  all_goals first | decide | exact fun _ _ _ => put_comm fun _ _ => rfl

theorem independent_report : Independent (Setting.fields ReportSettings.table) :=
  List.pairwise_singleton _ _

namespace Settings

/-- The tables of settings as the fields of a record. -/
def fields : List (String × (Settings → Value → Option Settings)) := [
  ("analysis", fun settings value =>
    (Setting.readTable AnalysisSettings.table {} value).map fun analysis =>
      { settings with analysis }),
  ("runner", fun settings value =>
    (Setting.readTable RunnerSettings.table {} value).map fun runner => { settings with runner }),
  ("report", fun settings value =>
    (Setting.readTable ReportSettings.table {} value).map fun report => { settings with report })]

theorem independent_fields : Independent fields := by
  simp only [Independent, fields, List.pairwise_cons, List.forall_mem_cons, List.not_mem_nil,
    false_implies, implies_true, List.Pairwise.nil, and_true]
  repeat' apply And.intro
  all_goals first | decide | exact fun _ _ _ => put_comm fun _ _ => rfl

/-- Settings are the same in all documents that say the same. -/
theorem determined_ofToml : Determined ofToml? := by
  refine determined_asRecord independent_fields ?_ {}
  simp only [fields, List.forall_mem_cons, List.not_mem_nil, false_implies, implies_true, and_true]
  refine ⟨fun settings _ _ distinct distinct' same => ?_, fun settings _ _ distinct distinct' same => ?_,
    fun settings _ _ distinct distinct' same => ?_⟩
  · exact congrArg _ (determined_readTable independent_analysis {} distinct distinct' same)
  · exact congrArg _ (determined_readTable independent_runner {} distinct distinct' same)
  · exact congrArg _ (determined_readTable independent_report {} distinct distinct' same)

/-! ### The settings after a toggle -/

/-- The settings of analyses after `enabled` is given a value. -/
theorem readTable_setEnabled {below : Members} (names : (below.map (·.1.name)).Nodup)
    {analysis : AnalysisSettings}
    (read : Setting.readTable AnalysisSettings.table {} (.table (memberValues below)) = some analysis)
    (enabled : Bool) :
    Setting.readTable AnalysisSettings.table {}
        (.table (memberValues (below.set (.plain "enabled") (.boolean enabled)))) =
      some { analysis with enabled } := by
  refine asRecord_set (fun settings : AnalysisSettings => { settings with enabled })
    independent_analysis ?_ ?_ rfl names read
  · simp only [List.map_cons, List.map_nil, List.forall_mem_cons, List.not_mem_nil, false_implies,
      implies_true, and_true, Setting.put, Option.map_map]
    exact ⟨fun _ _ => rfl, fun _ _ => rfl, fun _ _ => rfl⟩
  · intro value settings put
    obtain ⟨written, -, rfl⟩ := Option.map_eq_some_iff.mp put
    rfl

/-- No table but `analysis` changes the settings of analyses. -/
theorem analysis_commutes (analysis : AnalysisSettings) :
    ∀ field ∈ fields.tail, ∀ (settings : Settings) (value : Value),
      field.2 { settings with analysis } value =
        (field.2 settings value).map fun settings => { settings with analysis } := by
  simp only [fields, List.tail_cons, List.forall_mem_cons, List.not_mem_nil, false_implies,
    implies_true, and_true, Option.map_map]
  exact ⟨fun _ _ => rfl, fun _ _ => rfl⟩

/-- The settings of analyses are what is read from the table `analysis`, or the defaults. -/
theorem analysis_of_ofToml {document : Document} (names : (document.top.map (·.1.name)).Nodup)
    {settings : Settings} (read : ofToml? document.value = some settings) :
    match document.top.get? "analysis" with
    | none => settings.analysis = {}
    | some item => Setting.readTable AnalysisSettings.table {} item.value = some settings.analysis := by
  have first := first_of_asRecord Settings.analysis
    (fun settings analysis => { settings with analysis }) (fun _ _ => rfl) (fun _ => rfl)
    independent_fields (fun field mem settings value analysis =>
      analysis_commutes analysis field mem settings value) names read
  cases found : document.top.get? "analysis" with
  | none =>
    rw [found] at first
    exact first
  | some item =>
    rw [found] at first
    simpa [Option.map_map, Function.comp_def] using first

/-- What is read from a document after `enabled` is given a value: the settings as they were, but
for those of analyses where they were not in a table of their own. -/
theorem ofToml?_setIn {document : Document} (distinct : document.top.Distinct) {settings : Settings}
    (read : ofToml? document.value = some settings) (enabled : Bool) :
    ofToml? (document.setIn "analysis" "enabled" (.boolean enabled)).value = some { settings with
      analysis := { (if (document.top.get? "analysis").all Item.isTable then settings.analysis else {})
        with enabled } } := by
  have first := analysis_of_ofToml distinct.1 read
  obtain ⟨heading, below, tableIs, names, before⟩ : ∃ heading below,
      document.top.tableOf "analysis" = (heading, below) ∧ (below.map (·.1.name)).Nodup ∧
        Setting.readTable AnalysisSettings.table {} (.table (memberValues below)) =
          some (if (document.top.get? "analysis").all Item.isTable then settings.analysis else {}) := by
    rw [Members.tableOf, Members.table?]
    cases found : document.top.get? "analysis" with
    | none =>
      rw [found] at first
      exact ⟨{}, [], rfl, List.nodup_nil, by rw [show settings.analysis = {} from first]; rfl⟩
    | some item =>
      rw [found] at first
      obtain ⟨key, mem, -⟩ := Members.mem_of_get? found
      cases item with
      | table heading below =>
        cases distinct.2 _ mem with
        | table names => exact ⟨heading, below, rfl, names, first⟩
      | _ => exact ⟨{}, [], rfl, List.nodup_nil, rfl⟩
  have after := readTable_setEnabled names before enabled
  show ofToml? (.table (memberValues (document.top.setIn "analysis" "enabled" (.boolean enabled)))) = _
  rw [Members.setIn_eq, tableIs]
  refine asRecord_set (fun settings : Settings => { settings with analysis := _ })
    independent_fields (analysis_commutes _) ?_ ?_ distinct.1 read
  · intro value settings put
    obtain ⟨written, -, rfl⟩ := Option.map_eq_some_iff.mp put
    rfl
  · show (Setting.readTable AnalysisSettings.table {} _).map _ = _
    rw [Item.value, after]
    rfl

end Settings

end StyleMonitor
