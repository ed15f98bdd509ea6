import StyleMonitor.Proofs.Analysis.Faults
import StyleMonitor.Proofs.Console.Work
import StyleMonitor.Proofs.Disk.Direct
import StyleMonitor.Proofs.Freshness.Recording
import StyleMonitor.Proofs.Instant

/-!
# What is shown of the last pull

A record holds the time of a pull as any number of milliseconds below 2 ^ 64, and the calendar ends
before that. Showing the settings ends well if the time that is looked up is in the calendar, and
breaks off when it is not.
-/

namespace StyleMonitor

open Disk

namespace Settings

/-- The file of the record has its own name in every home. -/
theorem fileName?_recordPath (home : String) :
    Path.fileName? (recordPath home) = some "state.json" := by
  refine fileName?_of_steps ?_ (by decide)
  rw [recordPath, steps_join (by decide +kernel),
    show steps "state.json" = ["state.json"] by decide +kernel, List.getLast?_concat]

theorem storable_recordPath (home : String) : Storable (recordPath home) where
  extension := by
    rw [Path.extension?, fileName?_recordPath]
    decide +kernel
  lasting n same := by
    rw [fileName?_recordPath] at same
    exact ne_temporaryName (by decide +kernel) n (Option.some.inj same)

end Settings

namespace Freshness

/-- What is looked up in a file is a number of milliseconds. -/
theorem last?_file (path key : String) (volume : Volume) :
    ∃ (pull : Option Nat) (later : Volume), (file path).last? key volume =
      (.ok (pull.map fun millis : Nat => .ofMillis millis), later) := by
  obtain ⟨last, later, found⟩ := ((file path).last?_answers key).apply volume
  simp only [last?, Session.bind_apply] at found
  rcases read : readTable path volume with ⟨failure | table, after⟩
  · rw [read] at found
    cases found
  · refine ⟨table.lookup key, after, ?_⟩
    simp only [last?, Session.bind_apply, read]
    cases table.lookup key <;> rfl

end Freshness

namespace Console

variable {here : Circumstances} {settings : Settings} {console : Console} {config : String}
  {last : Option Instant}

/-- What is shown of the time of the last pull, if that can be shown. -/
def pullText? : Option Instant → Option String
  | none => some "never"
  | some pull => pull.text?

/-- A time cannot be shown when the calendar has ended before it. -/
theorem pullText?_isSome_iff {pull : Option Nat} :
    (pullText? (pull.map fun millis : Nat => .ofMillis millis)).isSome = true ↔
      ∀ millis, pull = some millis → millis < Instant.calendarMillis := by
  cases pull with
  | none => exact iff_of_true rfl nofun
  | some millis =>
    have within := Instant.inCalendar_ofMillis millis
    simp only [Option.map_some, pullText?, Instant.text?, Option.some.injEq, forall_eq']
    rw [← within]
    split <;> simp [*]

/-- The rows above the last pull. -/
def settingLines (config : String) (settings : Settings) : List String :=
  (settingRows config settings).map fun (name, value) => row name value

/-- How showing the settings ends, given the last pull and the files that are left. -/
def shown (here : Circumstances) (console : Console) (config : String) (settings : Settings)
    (last : Option Instant) (volume : Volume) : Nat × Console :=
  match pullText? last with
  | some text => (0, { console with
      volume
      stdout := console.stdout ++ settingLines config settings ++
        [row "last pull" text, row "ignore file" settings.report.ignoreFile] })
  | none => (brokenOff, { console with
      volume
      stdout := console.stdout ++ settingLines config settings
      stderr := console.stderr ++ noSuchTimeLines here.thread })

theorem onHost_lastPull? {record : String} {settings : RunnerSettings} {last : Option Instant}
    {volume : Volume}
    (found : (Freshness.file record).last? settings.cacheKey console.volume = (.ok last, volume)) :
    onHost record (Host.lastPull? settings) console = (.ok last, { console with volume }) := by
  have consults : Host.lastPull? settings (⟨console.volume, .file record, ()⟩ : Host Unit) =
      (last, ⟨volume, .file record, ()⟩) := by
    simp only [Host.lastPull?, Host.onFiles, bind, StateT.bind, get, getThe, MonadStateOf.get,
      StateT.get, pure, found]
  rw [onHost, consults]

/-- The last two rows are written together, and then all is well. -/
theorem say_say (first second : String) (console : Console) :
    (say first >>= fun _ => say second >>= fun _ => pure 0) console =
      (.ok 0, { console with stdout := console.stdout ++ [first, second] }) := by
  rw [bind_ok (say_eq first console), bind_ok (say_eq second _), List.append_assoc]
  rfl

theorem status_eq {volume : Volume}
    (found : (Freshness.file (Settings.recordPath here.home)).last? settings.runner.cacheKey
      console.volume = (.ok last, volume)) :
    status here config settings console =
      (.ok (shown here console config settings last volume).1,
        (shown here console config settings last volume).2) := by
  let begun : Console := { console with stdout := console.stdout ++ settingLines config settings }
  have rows : ((settingRows config settings).forM fun (name, value) => say (row name value))
      console = (.ok (), begun) := forM_row _ console
  have looked : onHost (Settings.recordPath here.home) (Host.lastPull? settings.runner) begun =
      (.ok last, { begun with volume }) :=
    onHost_lastPull? found
  rw [status, bind_ok rows, bind_ok looked]
  cases last with
  | none =>
    simp only [shown, pullText?]
    rw [say_say]
  | some pull =>
    simp only [shown, pullText?]
    cases pull.text? with
    | some text =>
      dsimp only
      rw [say_say]
    | none =>
      dsimp only
      rw [bind_ok (forM_warn (noSuchTimeLines here.thread) _)]
      rfl

/-- Showing the settings ends well if the last pull is before the end of the calendar or there is
none, and breaks off with a complaint at any other one. The last pull is that in the file of the record or, if it is
not there, in the parked one, whichever bytes they have. -/
theorem status_ends_unless_past_calendar (here : Circumstances) (config : String)
    (settings : Settings) (console : Console) :
    ∃ (pull : Option Nat) (volume : Volume),
      (Freshness.file (Settings.recordPath here.home)).last? settings.runner.cacheKey
        console.volume = (.ok (pull.map fun millis : Nat => .ofMillis millis), volume) ∧
      (Tended (Settings.recordPath here.home) console.volume.disk →
        (Freshness.file (Settings.recordPath here.home)).Legible console.volume →
        pull = Freshness.pullsIn (console.volume.disk.held? (Settings.recordPath here.home))
          settings.runner.cacheKey) ∧
      ((∀ millis, pull = some millis → millis < Instant.calendarMillis) →
        ∃ text, pullText? (pull.map fun millis : Nat => .ofMillis millis) = some text ∧
          status here config settings console = (.ok 0, { console with
            volume
            stdout := console.stdout ++ settingLines config settings ++
              [row "last pull" text, row "ignore file" settings.report.ignoreFile] })) ∧
      ((∃ millis, pull = some millis ∧ Instant.calendarMillis ≤ millis) →
        status here config settings console = (.ok brokenOff, { console with
          volume
          stdout := console.stdout ++ settingLines config settings
          stderr := console.stderr ++ noSuchTimeLines here.thread })) := by
  obtain ⟨pull, volume, found⟩ := Freshness.last?_file (Settings.recordPath here.home)
    settings.runner.cacheKey console.volume
  refine ⟨pull, volume, found, fun tended legible => ?_, fun within => ?_, ?_⟩
  · have tidy : (Freshness.file (Settings.recordPath here.home)).Tidy console.volume.disk :=
      ⟨Settings.storable_recordPath here.home, tended⟩
    obtain ⟨later, looked, -⟩ := Freshness.last?_legible tidy legible settings.runner.cacheKey
    rw [found] at looked
    exact Option.map_injective Instant.ofMillis_natCast_injective
      (Except.ok.inj (Prod.mk.inj looked).1)
  · obtain ⟨text, shows⟩ := Option.isSome_iff_exists.mp (pullText?_isSome_iff.mpr within)
    refine ⟨text, shows, ?_⟩
    rw [status_eq found, shown, shows]
  · rintro ⟨millis, rfl, past⟩
    have hides := (not_congr pullText?_isSome_iff).mpr fun within =>
      Nat.not_lt.mpr past (within millis rfl)
    rw [status_eq found, shown, Option.not_isSome_iff_eq_none.mp hides]

/-- A home whose record keeps one pull, in a file with this name. -/
def keeping (name : String) (millis : Nat) : Volume :=
  let text := "\x7b\"lastImagePull\": " ++ Decimal.text millis ++ "\x7d"
  { disk := { tree := ⟨[(["h"], .directory), (["h", ".stylewatch"], .directory),
      (["h", ".stylewatch", name], .file (Text.encode text) false)]⟩ } }

/-- The last millisecond of the calendar, in a parked file. -/
theorem status_ends_unless_past_calendar_parked :
    let here : Circumstances := { home := "/h", now := ⟨0⟩ }
    let console : Console := { volume := keeping "state.bak" 8210266876799999 }
    console.volume.disk.file? "/h/.stylewatch/state.json" = none ∧
    ∃ volume, status here "c.toml" {} console = (.ok 0, { console with
      volume
      stdout := settingLines "c.toml" {} ++
        [row "last pull" "+262142-12-31 23:59:59 +00:00", row "ignore file" ".gitignore"] }) := by
  intro here console
  have path : Settings.recordPath here.home = "/h/.stylewatch/state.json" := by decide +kernel
  have own : console.volume.disk.leads "/h/.stylewatch/state.json" =
      some (["h", ".stylewatch", "state.json"], true) := by decide +kernel
  have parked : console.volume.disk.leads (Session.backupPath "/h/.stylewatch/state.json") =
      some (["h", ".stylewatch", "state.bak"], true) := by decide +kernel
  have tended : Tended "/h/.stylewatch/state.json" console.volume.disk :=
    tended_of_leads ⟨Tree.grounded_of_mem (by decide +kernel), rfl⟩ (by decide +kernel)
      (by decide +kernel) own (Or.inl rfl) parked (Or.inr ⟨_, _, rfl⟩)
  obtain ⟨pull, volume, -, held, well, -⟩ :=
    status_ends_unless_past_calendar here "c.toml" {} console
  have holds : pull = some 8210266876799999 :=
    (held (path ▸ tended) (by decide +kernel)).trans (by decide +kernel)
  subst holds
  obtain ⟨text, shows, ends⟩ := well fun millis same => Option.some.inj same ▸ by decide
  have written : text = "+262142-12-31 23:59:59 +00:00" :=
    Option.some.inj (shows.symm.trans (by decide +kernel))
  subst written
  exact ⟨by decide +kernel, volume, ends⟩

/-- A millisecond later the calendar has ended, and the program breaks off before it shows the last
pull. -/
theorem status_past_calendar :
    let here : Circumstances := { home := "/h", now := ⟨0⟩ }
    let console : Console := { volume := keeping "state.json" 8210266876800000 }
    let ended := perform here { request := .status } console
    ended.1.toOption = some brokenOff ∧
      ended.2.stdout = settingLines "/h/.stylewatch/config.toml" {} ∧
      ended.2.stderr = noSuchTimeLines here.thread := by
  decide +kernel

end Console

end StyleMonitor
