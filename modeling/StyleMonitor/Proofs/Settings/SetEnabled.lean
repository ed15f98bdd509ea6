import StyleMonitor.Proofs.Disk.AtomicWrite
import StyleMonitor.Proofs.Settings.Toggle

/-!
# The settings file after a toggle

Setting `enabled` in the settings file gives a text that can be edited again and has a table
`analysis` with this value, in whatever form the settings of analyses were written before. All other
settings keep their values, but for those of analyses where they were not written in a table of
their own.
-/

namespace StyleMonitor.Settings

open Toml Disk

/-! ### Keys and values that are set -/

theorem legible_plain {name : String}
    (read : readName (name.toList ++ ['=']) = some (.plain name, ['='])) : (Key.plain name).Legible :=
  ⟨(readName_some read).2.2.2, rfl, .nil, .nil, .nil⟩

theorem legible_analysis : (Key.plain "analysis").Legible :=
  legible_plain (by decide +kernel)

theorem legible_enabled : (Key.plain "enabled").Legible :=
  legible_plain (by decide +kernel)

theorem onLine_boolean (value : Bool) : (Item.boolean value).OnLine := by
  have reads : ∀ spelling : List Char, ofSpelling? spelling = some (.boolean value) →
      spanScalar spelling = (spelling, []) →
      (Item.scalar {} spelling (.boolean value)).OnLine := by
    intro spelling spelled span
    obtain ⟨-, -, head, spans⟩ := spanScalar_append span
    exact ⟨.scalar spelled head spans, by simp [Item.decor, Blank]; decide, .nil⟩
  cases value with
  | true => exact reads "true".toList (by decide +kernel) (by decide +kernel)
  | false => exact reads "false".toList (by decide +kernel) (by decide +kernel)

/-! ### The text of the file -/

/-- The text of the file is asked for without changing anything. -/
theorem fileText_ensures (path : String) (disk : Disk) :
    Session.Ensures (fileText path) disk (fun _ later => later = disk) (fun later => later = disk) := by
  have asks : Session.Ensures (Session.readText path) disk (fun _ later => later = disk)
      (fun later => later = disk) := by
    refine .bind (.ask (fun content _ => ?_) rfl)
    split
    · exact .pure rfl
    · exact .throw rfl
  refine .bind (.attempt (asks.mono ?_ ?_))
  · rintro text later rfl
    exact .pure rfl
  · rintro later rfl failure
    exact .pure rfl

/-- A file that holds a text is read as this text. -/
theorem fileText_spared {disk : Disk} {path text : String}
    (file : disk.file? path = some (Text.encode text)) (later : List (Option Cause)) :
    fileText path ⟨disk, none :: later⟩ = (.ok (.ok text), ⟨disk, later⟩) := by
  obtain ⟨result, ran, reads⟩ := Session.readText_spared path disk later
  rw [show (disk.read path).toOption = some (Text.encode text) from file, Option.bind_some,
    Text.decode?_encode] at reads
  cases result with
  | error failure => cases reads
  | ok read =>
    cases reads
    rw [fileText, Session.bind_apply, Session.attempt_apply, ran]
    rfl

/-- A toggle succeeds if the text of the file can be edited and the new one is written. -/
theorem setEnabled_ok_iff {path : String} {enabled : Bool} {volume later : Volume} :
    setEnabled path enabled volume = (.ok (.ok ()), later) ↔ ∃ text between new,
      fileText path volume = (.ok (.ok text), between) ∧ withEnabled? enabled text = some new ∧
      Session.atomicWrite path (Text.encode new) between = (.ok (), later) := by
  constructor
  · intro done
    rw [setEnabled, Session.bind_apply] at done
    rcases reads : fileText path volume with ⟨failure | fault | text, between⟩
    · rw [reads] at done
      cases done
    · rw [reads] at done
      cases done
    · rw [reads] at done
      cases edited : withEnabled? enabled text with
      | none =>
        simp only [edited] at done
        cases done
      | some new =>
        simp only [edited, Session.bind_apply, Session.attempt_apply] at done
        rcases ran : Session.atomicWrite path (Text.encode new) between with ⟨failure | ⟨⟩, after⟩
        · rw [ran] at done
          cases done
        · rw [ran] at done
          cases done
          exact ⟨text, between, new, rfl, edited, ran⟩
  · rintro ⟨text, between, new, reads, edited, ran⟩
    rw [setEnabled, Session.bind_apply, reads]
    simp only [edited, Session.bind_apply, Session.attempt_apply, ran]
    rfl

/-- The text of a file was `text`, and `new` is written in its place and, where writes to the path
are safe, read from now on. -/
structure Rewrites (path text new : String) (volume later : Volume) : Prop where
  was : (fileText path volume).1 = .ok (.ok text)
  written : ∃ between, Session.atomicWrite path (Text.encode new) between = (.ok (), later)
  reads : Storable path → Ready False path volume.disk → ∀ refusals,
    fileText path ⟨later.disk, none :: refusals⟩ = (.ok (.ok new), ⟨later.disk, refusals⟩)

/-- A toggle that succeeds has edited the text of the file. -/
theorem rewrites_of_setEnabled {path : String} {enabled : Bool} {volume later : Volume}
    (done : setEnabled path enabled volume = (.ok (.ok ()), later)) : ∃ text new,
      Rewrites path text new volume later ∧ withEnabled? enabled text = some new := by
  obtain ⟨text, between, new, reads, edited, ran⟩ := setEnabled_ok_iff.mp done
  refine ⟨text, new, ⟨by rw [reads], ⟨between, ran⟩, fun storable ready refusals => ?_⟩, edited⟩
  have same := fileText_ensures path volume.disk volume.refusals
  rw [reads] at same
  rw [← show between.disk = volume.disk from same] at ready
  have wrote := Session.atomicWrite_ensures_ready storable ready (Text.encode new) between.refusals
  rw [ran] at wrote
  exact fileText_spared wrote.2 refusals

/-- What is read from a file is what its text says. -/
theorem read_of_fileText {path text : String} {volume : Volume}
    (reads : (fileText path volume).1 = .ok (.ok text)) :
    (read path volume).1 = .ok ((ofText? text).elim (.error (.meaningless path)) .ok) := by
  rw [read, Session.bind_apply]
  rcases ran : fileText path volume with ⟨failure | fault | found, between⟩
  · rw [ran] at reads
    cases reads
  · rw [ran] at reads
    cases reads
  · rw [ran] at reads
    cases reads
    cases meant : ofText? text with
    | none => simp only [meant]; rfl
    | some settings => simp only [meant]; rfl

/-! ### The document after a toggle -/

theorem distinct_of_sound {members : Members} (sound : members.Sound Item.OnLine) :
    members.Distinct :=
  ⟨sound.proper.distinct, fun member mem =>
    (sound.items member mem).distinct fun _ fits => fits.1.distinct⟩

theorem memberValues_set {item other : Item} (same : item.value = other.value) (key : Key)
    (members : Members) : memberValues (members.set key item) = memberValues (members.set key other) := by
  induction members with
  | nil => rw [Members.set, Members.set, memberValues, same, ← memberValues]
  | cons member rest ih =>
    obtain ⟨own, was⟩ := member
    rw [Members.set, Members.set]
    split
    · rw [memberValues, memberValues, same]
    · rw [memberValues, memberValues, ih]

/-- Whether a document has a table `analysis` in which `enabled` has this value. -/
def Switched (enabled : Bool) (document : Document) : Prop :=
  ∃ heading below, document.top.get? "analysis" = some (.table heading below) ∧
    (Members.get? below "enabled").map Item.value = some (Value.scalar (.boolean enabled))

/-- What a document says tells whether it is switched. -/
theorem switched_of_shapes {document : Document} {enabled implicit dotted : Bool} {fields below : Fields}
    (shapes : memberShapes document.top = Function.update fields "analysis"
      (some (.table implicit dotted (Function.update below "enabled"
        (some (Item.boolean enabled).shape))))) : Switched enabled document := by
  have analysis := memberShapes_apply document.top "analysis"
  rw [shapes, Function.update_self, eq_comm, Option.map_eq_some_iff] at analysis
  obtain ⟨item, found, shape⟩ := analysis
  cases item with
  | table heading members =>
    refine ⟨heading, members, found, ?_⟩
    rw [Item.shape, Shape.table.injEq] at shape
    have own := memberShapes_apply members "enabled"
    rw [shape.2.2, Function.update_self, eq_comm, Option.map_eq_some_iff] at own
    obtain ⟨item, found, shape⟩ := own
    rw [found]
    cases item with
    | scalar =>
      cases shape
      rfl
    | _ => cases shape
  | _ => cases shape

theorem membersFit_congr {members others : Members} (distinct : members.Distinct)
    (distinct' : others.Distinct) (same : memberShapes members = memberShapes others) :
    membersFit members = membersFit others := by
  have fits : (Item.table {} members).fits = (Item.table {} others).fits :=
    fits_congr (.table distinct.1 distinct.2) (.table distinct'.1 distinct'.2)
      (by rw [Item.shape, Item.shape, same])
  rwa [Item.fits, Item.fits] at fits

theorem membersFit_set {members : Members} (fits : membersFit members = true) (key : Key) {item : Item}
    (own : item.fits = true) : membersFit (members.set key item) = true :=
  membersFit_iff.mpr (Members.forall_set (P := fun _ item => item.fits = true)
    (membersFit_iff.mp fits) own)

theorem membersFit_tableOf {members : Members} (fits : membersFit members = true) (name : String) :
    membersFit (members.tableOf name).2 = true := by
  rcases members.tableOf_cases name with none | found
  · rw [none]
    rfl
  · obtain ⟨key, mem, -⟩ := Members.mem_of_get? found
    have own := membersFit_iff.mp fits _ mem
    rwa [Item.fits] at own

/-- After a toggle the document can be edited again, is switched, and says what the edited one
says. -/
theorem reread_setEnabled {document : Document} (sound : document.Sound)
    (fits : membersFit document.top = true) (enabled : Bool) :
    ∃ again, Document.ofEditable?
        (document.setIn "analysis" "enabled" (.boolean enabled)).text = some again ∧
      Switched enabled again ∧ ofToml? again.value =
        ofToml? (document.setIn "analysis" "enabled" (.boolean enabled)).value := by
  have value : (Item.boolean enabled).isValue = true := rfl
  obtain ⟨again, number, read, soundShown, shapes⟩ := ofText?_setIn sound legible_analysis
    legible_enabled value (onLine_boolean enabled)
  have distinct := distinct_of_sound (Document.sound_of_ofText? read).top
  have distinctShown := distinct_of_sound soundShown
  refine ⟨again, ?_, ?_, ?_⟩
  · rw [Document.ofEditable?, read, Option.filter_some, membersFit_congr distinct distinctShown shapes,
      Members.setShown, membersFit_set fits]
    · rfl
    · rw [Item.fits]
      exact membersFit_set (membersFit_tableOf fits "analysis") _ rfl
  · rw [memberShapes_setShown sound.top] at shapes
    exact switched_of_shapes shapes
  · set shown := document.top.setShown number "analysis" "enabled" (.boolean enabled) with shownDef
    have same : ofToml? (Item.table {} again.top).value = ofToml? (Item.table {} shown).value :=
      determined_ofToml (.table distinct.1 distinct.2) (.table distinctShown.1 distinctShown.2)
        (by rw [Item.shape, Item.shape, shapes])
    have unseen : ∀ (heading : Heading) (below : Members),
        (Item.table (heading.shown number) below).value = (Item.table heading below).value := by
      intro heading below
      rw [Item.value, Item.value]
    rw [Item.value, Item.value, shownDef, Members.setShown, memberValues_set (unseen _ _)] at same
    exact same

/-- A document that is edited is one that was read, and the text is that of the edited document. -/
theorem withEnabled?_eq_some {enabled : Bool} {text new : String}
    (edited : withEnabled? enabled text = some new) : ∃ document,
      Document.ofText? text = some document ∧ Document.ofEditable? text = some document ∧
      membersFit document.top = true ∧
      new = (document.setIn "analysis" "enabled" (.boolean enabled)).text := by
  obtain ⟨document, editable, rfl⟩ := Option.map_eq_some_iff.mp edited
  obtain ⟨read, fits⟩ := Option.filter_eq_some_iff.mp editable
  exact ⟨document, read, editable, fits, rfl⟩

/-! ### A disk with one file -/

/-- A disk with nothing on it but a file of settings. -/
def oneFile (text : String) : Disk :=
  { tree := ⟨[(["c.toml"], .file (Text.encode text) false)]⟩ }

theorem storable_oneFile : Storable "c.toml" where
  extension := by decide +kernel
  lasting n same := by
    rw [show Path.fileName? "c.toml" = some "c.toml" by decide +kernel] at same
    exact ne_temporaryName (by decide +kernel) n (Option.some.inj same)

theorem ready_oneFile (text : String) : Ready False "c.toml" (oneFile text) where
  sound := by
    refine ⟨Tree.grounded_of_mem fun entry mem => ?_, rfl⟩
    cases List.mem_singleton.mp mem
    rfl
  upward := upward_of_not_mem (show ".." ∉ steps "c.toml" by decide +kernel) _
  plain := plain_of_leads (show (oneFile text).leads "c.toml" = some (["c.toml"], true) by rfl)
    (Or.inr ⟨_, _, rfl⟩)
  plainBackup := plain_of_leads
    (show (oneFile text).leads (Session.backupPath "c.toml") = some (["c.bak"], true) by rfl)
    (Or.inl rfl)
  recoverable := False.elim

theorem setEnabled_oneFile {enabled : Bool} {text new : String}
    (edited : withEnabled? enabled text = some new)
    (wrote : Session.atomicWrite "c.toml" (Text.encode new) ⟨oneFile text, []⟩ =
      (.ok (), ⟨oneFile new, []⟩)) :
    setEnabled "c.toml" enabled ⟨oneFile text, [none]⟩ = (.ok (.ok ()), ⟨oneFile new, []⟩) :=
  setEnabled_ok_iff.mpr ⟨text, _, new, fileText_spared rfl [], edited, wrote⟩

theorem eq_of_rewrites_oneFile {text new text' new' : String}
    (rewrites : Rewrites "c.toml" text' new' ⟨oneFile text, [none]⟩ ⟨oneFile new, []⟩) :
    text' = text ∧ new' = new := by
  have was := rewrites.was
  have reads := rewrites.reads storable_oneFile (ready_oneFile text) []
  rw [fileText_spared rfl] at was reads
  cases was
  cases reads
  exact ⟨rfl, rfl⟩

theorem read_oneFile (text : String) : (read "c.toml" ⟨oneFile text, [none]⟩).1 =
    .ok ((ofText? text).elim (.error (.meaningless "c.toml")) .ok) :=
  read_of_fileText (by rw [fileText_spared rfl])

/-! ### What a toggle does -/

/-- A toggle that succeeds takes effect: the new text can be edited again, and has a table `analysis`
with this `enabled`. -/
theorem setEnabled_takes_effect {path : String} {enabled : Bool} {volume later : Volume}
    (done : setEnabled path enabled volume = (.ok (.ok ()), later)) :
    ∃ text new, Rewrites path text new volume later ∧
      ∃ again, Document.ofEditable? new = some again ∧ Switched enabled again := by
  obtain ⟨text, new, rewrites, edited⟩ := rewrites_of_setEnabled done
  obtain ⟨document, reads, -, fits, rfl⟩ := withEnabled?_eq_some edited
  obtain ⟨again, editable, switched, -⟩ :=
    reread_setEnabled (Document.sound_of_ofText? reads) fits enabled
  exact ⟨text, _, rewrites, again, editable, switched⟩

/-- An inline table with a comment before its key, and a document in which dotted keys lead through
a table that headers mention before and after them. -/
theorem setEnabled_takes_effect_commented :
    let text := "# c\nanalysis = { enabled = false }\n"
    let new := "# c\n[analysis]\nenabled = true\n"
    let tangled := "[a.x.y]\n[a.b.d]\n[a]\nb.c.e = 1\n[a.b.c.f]\n[a.x.z]\n"
    let untangled := "[a.x.y]\n[a.b.d]\n[a]\nb.c.e = 1\n[a.b.c.f]\n\n[analysis]\nenabled = true\n" ++
      "[a.x.z]\n"
    (setEnabled "c.toml" true ⟨oneFile text, [none]⟩ = (.ok (.ok ()), ⟨oneFile new, []⟩) ∧
      ∃ again, Document.ofEditable? new = some again ∧ Switched true again) ∧
    setEnabled "c.toml" true ⟨oneFile tangled, [none]⟩ = (.ok (.ok ()), ⟨oneFile untangled, []⟩) ∧
      ∃ again, Document.ofEditable? untangled = some again ∧ Switched true again := by
  intro text new tangled untangled
  have edited : withEnabled? true text = some new ∧ withEnabled? true tangled = some untangled := by
    simp only [withEnabled?, Document.text, Section.ordered, mergeSort_eq_insertionSort]
    decide +kernel
  have done := setEnabled_oneFile edited.1 (show (_ : Except Failure Unit × Volume) = _ by decide +kernel)
  have done' := setEnabled_oneFile edited.2 (show (_ : Except Failure Unit × Volume) = _ by decide +kernel)
  obtain ⟨text', new', rewrites, effect⟩ := setEnabled_takes_effect done
  obtain ⟨rfl, rfl⟩ := eq_of_rewrites_oneFile rewrites
  obtain ⟨text', new', rewrites, effect'⟩ := setEnabled_takes_effect done'
  obtain ⟨rfl, rfl⟩ := eq_of_rewrites_oneFile rewrites
  exact ⟨⟨done, effect⟩, done', effect'⟩

/-- A toggle that succeeds changes no setting but `enabled`, where the settings of analyses are in
a table of their own or not written at all. Where they are in an inline table or an array, all of
them but `enabled` are lost. -/
theorem setEnabled_keeps_settings {path : String} {enabled : Bool} {volume later : Volume}
    {settings : Settings} (reads : (read path volume).1 = .ok (.ok settings))
    (done : setEnabled path enabled volume = (.ok (.ok ()), later)) :
    ∃ text new document, Rewrites path text new volume later ∧
      Document.ofEditable? text = some document ∧
      ∀ again, (fileText path again).1 = .ok (.ok new) →
        (read path again).1 = .ok (.ok { settings with analysis := {
          (if (document.top.get? "analysis").all Item.isTable then settings.analysis else {})
            with enabled } }) := by
  obtain ⟨text, new, rewrites, edited⟩ := rewrites_of_setEnabled done
  obtain ⟨document, readsText, editable, fits, rfl⟩ := withEnabled?_eq_some edited
  have sound := Document.sound_of_ofText? readsText
  have meant : ofToml? document.value = some settings := by
    rw [read_of_fileText rewrites.was, ofText?, readsText, Option.bind_some] at reads
    cases found : ofToml? document.value with
    | none => rw [found] at reads; cases reads
    | some other => rw [found] at reads; cases reads; rfl
  refine ⟨text, _, document, rewrites, editable, fun later readsNew => ?_⟩
  obtain ⟨again, editableAgain, -, same⟩ := reread_setEnabled sound fits enabled
  rw [read_of_fileText readsNew, ofText?, (Option.filter_eq_some_iff.mp editableAgain).1,
    Option.bind_some, same, ofToml?_setIn (distinct_of_sound sound.top) meant]
  rfl

/-- A table with another setting. -/
theorem setEnabled_keeps_settings_delay :
    let text := "[analysis]\nenabled = false\ndebounce_delay_ms = 9\n\n[runner]\nruntime = \"p\"\n"
    let new := "[analysis]\nenabled = true\ndebounce_delay_ms = 9\n\n[runner]\nruntime = \"p\"\n"
    let settings : Settings :=
      { analysis := { enabled := false, debounceMillis := 9 }, runner := { runtime := "p" } }
    (read "c.toml" ⟨oneFile text, [none]⟩).1 = .ok (.ok settings) ∧
      setEnabled "c.toml" true ⟨oneFile text, [none]⟩ = (.ok (.ok ()), ⟨oneFile new, []⟩) ∧
      (read "c.toml" ⟨oneFile new, [none]⟩).1 =
        .ok (.ok { settings with analysis := { settings.analysis with enabled := true } }) := by
  intro text new settings
  have edited : withEnabled? true text = some new := by
    simp only [withEnabled?, Document.text, Section.ordered, mergeSort_eq_insertionSort]
    decide +kernel
  have done := setEnabled_oneFile edited
    (show (_ : Except Failure Unit × Volume) = _ by decide +kernel)
  have reads : (read "c.toml" ⟨oneFile text, [none]⟩).1 = .ok (.ok settings) := by
    rw [read_oneFile, show ofText? text = some settings by decide +kernel]
    rfl
  obtain ⟨text', new', document, rewrites, editable, kept⟩ := setEnabled_keeps_settings reads done
  obtain ⟨rfl, rfl⟩ := eq_of_rewrites_oneFile rewrites
  have isTable : (Document.ofEditable? text).all (fun document =>
      (document.top.get? "analysis").all Item.isTable) = true := by decide +kernel
  rw [editable, Option.all_some] at isTable
  have later := kept ⟨oneFile new, [none]⟩ (by rw [fileText_spared rfl])
  rw [if_pos isTable] at later
  exact ⟨reads, done, later⟩

/-- All settings of an inline table but `enabled` are lost. -/
theorem setEnabled_loses_settings :
    let text := "analysis = { debounce_delay_ms = 9 }\n"
    let new := "[analysis ]\nenabled = true\n"
    (read "c.toml" ⟨oneFile text, [none]⟩).1 = .ok (.ok { analysis := { debounceMillis := 9 } }) ∧
      setEnabled "c.toml" true ⟨oneFile text, [none]⟩ = (.ok (.ok ()), ⟨oneFile new, []⟩) ∧
      (read "c.toml" ⟨oneFile new, [none]⟩).1 = .ok (.ok { analysis := { debounceMillis := 500 } }) := by
  intro text new
  have edited : withEnabled? true text = some new := by
    simp only [withEnabled?, Document.text, Section.ordered, mergeSort_eq_insertionSort]
    decide +kernel
  refine ⟨?_, setEnabled_oneFile edited
    (show (_ : Except Failure Unit × Volume) = _ by decide +kernel), ?_⟩
  · rw [read_oneFile, show ofText? text = some { analysis := { debounceMillis := 9 } } by
      decide +kernel]
    rfl
  · rw [read_oneFile, show ofText? new = some { analysis := { debounceMillis := 500 } } by
      decide +kernel]
    rfl

end StyleMonitor.Settings
