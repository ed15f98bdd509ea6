import StyleMonitor.Proofs.Console.Status
import StyleMonitor.Proofs.Host.Invalidation

/-!
# What a refresh comes to

A refresh forgets the last pull of the image and then checks the image. A pull that was forgotten is
not found again, whatever the file of the record and the parked one held, so the check pulls, and a
refresh never says that the image is up to date. All that has to be granted is the first call of the
look-up: refused, it would take the file for missing and have the parked one put in its place.
-/

namespace StyleMonitor

open Disk Session

namespace Console

variable {here : Circumstances} {settings : Settings} {console : Console} {later : Host Unit}

/-- The host that works on the files of a console, with the record that is kept in a home. -/
def host (here : Circumstances) (console : Console) : Host Unit :=
  ⟨console.volume, .file (Settings.recordPath here.home), ()⟩

/-- A check of the image with what is configured, as of now. -/
def currentCheck (here : Circumstances) (settings : Settings) : Image.Check :=
  ⟨settings.runner.cacheKey, here.now, settings.runner.cacheMillis⟩

theorem onHost_eq {α : Type} (here : Circumstances) (work : StateM (Host Unit) α)
    (console : Console) :
    onHost (Settings.recordPath here.home) work console =
      (.ok (work (host here console)).1, { console with volume := (work (host here console)).2.volume }) :=
  rfl

/-- How a refresh ends that does not say that the image is up to date. -/
inductive Refreshed (here : Circumstances) (settings : Settings) (console : Console) :
    Except Complaint Nat × Console → Prop where
  | refused {failure : Failure} {later : Host Unit}
      (fails : Host.invalidateImage settings.runner (host here console) = (.error failure, later)) :
    Refreshed here settings console
      (.error ⟨"clearing the image freshness record", some failure.message⟩,
        { console with volume := later.volume })
  | pulled {later ended : Host Unit}
      (forgets : Host.invalidateImage settings.runner (host here console) = (.ok (), later))
      (pulls : Host.ensureImage (runtime here.around) settings.runner (currentCheck here settings)
        later = (.ok .pulled, ended)) :
    Refreshed here settings console (.ok 0, { console with
      volume := ended.volume
      stdout := console.stdout ++ ["Pulled " ++ settings.runner.image] })
  | failed {later ended : Host Unit} {fault : Image.PullFault}
      (forgets : Host.invalidateImage settings.runner (host here console) = (.ok (), later))
      (fails : Host.ensureImage (runtime here.around) settings.runner (currentCheck here settings)
        later = (.error fault, ended)) :
    Refreshed here settings console (.ok unsuccessful, { console with
      volume := ended.volume
      stderr := console.stderr ++ ["error: " ++ fault.message] })

/-- When the last pull cannot be forgotten the image is not checked. -/
theorem refreshed_of_failure {failure : Failure}
    (fails : Host.invalidateImage settings.runner (host here console) = (.error failure, later)) :
    Refreshed here settings console (refresh here settings console) := by
  have first := onHost_eq here (Host.invalidateImage settings.runner) console
  rw [fails] at first
  rw [refresh, bind_ok first]
  exact .refused fails

/-- When the last pull was forgotten, and the check that follows comes to a pull, that is said. -/
theorem refreshed_of_success (kept : later.pulls = .file (Settings.recordPath here.home))
    (forgets : Host.invalidateImage settings.runner (host here console) = (.ok (), later))
    (pulls : (Host.ensureImage (runtime here.around) settings.runner (currentCheck here settings)
      later).1 ≠ .ok .cached) :
    Refreshed here settings console (refresh here settings console) := by
  have first := onHost_eq here (Host.invalidateImage settings.runner) console
  rw [forgets] at first
  have same : host here { console with volume := later.volume } = later := by
    rw [host, ← kept]
  have second := onHost_eq here
    (Host.ensureImage (runtime here.around) settings.runner (currentCheck here settings))
    { console with volume := later.volume }
  rw [same] at second
  rw [refresh, bind_ok first]
  dsimp only
  rw [← currentCheck, bind_ok second]
  cases ends : Host.ensureImage (runtime here.around) settings.runner (currentCheck here settings)
    later with
  | mk result ended =>
    rw [ends] at pulls
    cases result with
    | error fault => exact .failed forgets ends
    | ok status =>
      cases status with
      | cached => exact absurd rfl pulls
      | pulled => exact .pulled forgets ends

/-! ### Pulls that were forgotten -/

/-- After the last pull of the image was forgotten it is not known, and the next check issues the
pull, whatever the file of the record and the parked one held, whatever the time is and however wide
the window. The other keys keep their times. So a refresh comes to a pull, or to what is wrong with
it. -/
theorem pull_forced_by_invalidation :
    (∀ (ρ : Type) (settings : RunnerSettings) (path : String) (host later : Host ρ),
      host.pulls = .file path → host.volume.disk.Sound →
      host.volume.disk.isDirectory (backupPath path) = false →
      Host.invalidateImage settings host = (.ok (), later) →
        (∀ found, Host.LooksUp later found → found.volume.Serves →
          Host.PullsNext settings found) ∧
        (∀ key, key ≠ settings.cacheKey → later.volume.disk.file? path ≠ none →
          (Freshness.file path).Legible later.volume →
          (Host.consult key later).1 = (Host.consult key host).1) ∧
        ((Freshness.file path).Tidy host.volume.disk → (Freshness.file path).Legible host.volume →
          (Freshness.file path).Tidy later.volume.disk ∧
          ∀ key, (Freshness.file path).standing? later.volume.disk key =
            if key = settings.cacheKey then none
            else (Freshness.file path).standing? host.volume.disk key)) ∧
    ∀ (here : Circumstances) (settings : Settings) (console : Console),
      console.volume.disk.Sound →
      console.volume.disk.isDirectory (backupPath (Settings.recordPath here.home)) = false →
      (∀ later, Host.invalidateImage settings.runner (host here console) = (.ok (), later) →
        later.volume.Serves) →
        Refreshed here settings console (refresh here settings console) := by
  constructor
  · intro ρ settings path host later kept sound other invalidates
    obtain ⟨forgotten, others⟩ :=
      Host.forgotten_of_invalidateImage kept sound other invalidates
    refine ⟨fun found looks serves => (forgotten.looksUp looks).pullsNext serves, others, ?_⟩
    intro tidy legible
    exact Freshness.standing?_of_forget tidy legible
      (Host.forget_of_invalidateImage kept invalidates).1
  · intro here settings console sound other serves
    cases invalidates : Host.invalidateImage settings.runner (host here console) with
    | mk result later =>
      cases result with
      | error failure => exact refreshed_of_failure invalidates
      | ok =>
        obtain ⟨forgotten, -⟩ :=
          @Host.forgotten_of_invalidateImage Unit settings.runner (host here console) later
            (Settings.recordPath here.home) rfl sound other invalidates
        have next : Host.PullsNext settings.runner later :=
          forgotten.pullsNext (serves later invalidates)
        exact refreshed_of_success forgotten.pulls invalidates
          (next.issues _ here.now settings.runner.cacheMillis).1

/-- A home whose record has a pull of the image that is yet to come and a pull under another key,
beside a parked file that is no record. -/
def ahead : Volume :=
  let text := "\x7b\"lastImagePull\": 9000000000000, \"other\": 5\x7d"
  { disk := { tree := ⟨[(["h"], .directory), (["h", ".stylewatch"], .directory),
      (["h", ".stylewatch", "state.json"], .file (Text.encode text) false),
      (["h", ".stylewatch", "state.bak"], .file (Text.encode "nothing") false)]⟩ } }

theorem pull_forced_by_invalidation_ahead :
    let here : Circumstances := { home := "/h", now := ⟨0⟩ }
    let before : Host Unit := host here { volume := ahead }
    (Host.lastPull? {} before).1 = some (.ofMillis 9000000000000) ∧
    ∃ later, Host.invalidateImage {} before = (.ok (), later) ∧ Host.PullsNext {} later ∧
      (Freshness.file "/h/.stylewatch/state.json").standing? later.volume.disk "other" =
        some (.ofMillis 5) ∧
      (Host.consult "other" later).1 = some (.ofMillis 5) ∧
      Refreshed here {} { volume := ahead } (refresh here {} { volume := ahead }) := by
  intro here before
  have path : Settings.recordPath here.home = "/h/.stylewatch/state.json" := by decide +kernel
  have pulls : before.pulls = .file "/h/.stylewatch/state.json" := congrArg Freshness.file path
  have sound : ahead.disk.Sound := ⟨Tree.grounded_of_mem (by decide +kernel), rfl⟩
  have other : ahead.disk.isDirectory (backupPath "/h/.stylewatch/state.json") = false := by
    decide +kernel
  have own : ahead.disk.leads "/h/.stylewatch/state.json" =
      some (["h", ".stylewatch", "state.json"], true) := by decide +kernel
  have parked : ahead.disk.leads (backupPath "/h/.stylewatch/state.json") =
      some (["h", ".stylewatch", "state.bak"], true) := by decide +kernel
  have tended : Tended "/h/.stylewatch/state.json" ahead.disk :=
    tended_of_leads sound (by decide +kernel) (by decide +kernel) own (Or.inr ⟨_, _, rfl⟩) parked
      (Or.inr ⟨_, _, rfl⟩)
  have storable := Settings.storable_recordPath here.home
  rw [path] at storable
  obtain ⟨later, invalidates, serves, there, legible⟩ :
      ∃ later, Host.invalidateImage {} before = (.ok (), later) ∧ later.volume.Serves ∧
        later.volume.disk.file? "/h/.stylewatch/state.json" ≠ none ∧
        (Freshness.file "/h/.stylewatch/state.json").Legible later.volume := by
    have succeeds : (Host.invalidateImage {} before).1 = .ok () := by decide +kernel
    refine ⟨(Host.invalidateImage {} before).2, ?_, by decide +kernel⟩
    rw [← succeeds, Prod.mk.eta]
  obtain ⟨next, same, stands⟩ := pull_forced_by_invalidation.1 Unit {} _ before later pulls sound
    other invalidates
  have refreshes := pull_forced_by_invalidation.2 here {} { volume := ahead } sound (path ▸ other)
    fun own same => by cases invalidates.symm.trans same; exact serves
  have standing := (stands ⟨storable, tended⟩ (by decide +kernel)).2 "other"
  refine ⟨by decide +kernel, later, invalidates, next later (.none later) serves, ?_, ?_, refreshes⟩
  · rw [standing]
    decide +kernel
  · rw [same "other" (by decide +kernel) there legible]
    decide +kernel

end Console

end StyleMonitor
