import StyleMonitor.Proofs.Freshness.Forgetting
import StyleMonitor.Proofs.Host.Commands

/-!
# Checks after a pull was forgotten

Once the last pull of the image was forgotten, look-ups find none, and the next check issues the
pull, whatever the time is and however wide the window. So it comes to a pull or to the fault of
one, and never to an image that is fresh enough.
-/

namespace StyleMonitor.Host

open Disk Session

variable {ρ : Type} {runtime : Runtime ρ} {settings : RunnerSettings} {check : Image.Check}
  {host later : Host ρ} {path key : String}

/-! ### Checks with their commands -/

/-- A check that is made with a list for its commands. -/
def noted (runtime : Runtime ρ) (settings : RunnerSettings) (check : Image.Check)
    (host : Host ρ) : Except Image.PullFault Image.Status × Host (ρ × List Carried) :=
  ensureImage runtime.listing settings check (host.watched [])

theorem consult_watched (key : String) (host : Host ρ) (listed : List Carried) :
    consult key (host.watched listed) =
      ((consult key host).1, (consult key host).2.watched listed) := by
  obtain ⟨last, volume, found, same⟩ := consult_eq key host
  obtain ⟨last', volume', found', same'⟩ := consult_eq key (host.watched listed)
  have both : (Except.ok last, volume) = (Except.ok last', volume') := found.symm.trans found'
  cases both
  rw [same, same']
  rfl

theorem isDue_watched (check : Image.Check) (host : Host ρ) (listed : List Carried) :
    isDue check (host.watched listed) = isDue check host := by
  rw [isDue, consult_watched, isDue]

theorem execute_listing (runtime : Runtime ρ) (command : Command) (host : Host ρ)
    (listed : List Carried) :
    execute runtime.listing command (host.watched listed) =
      ((execute runtime command host).1, (execute runtime command host).2.watched
        (listed ++ [carried runtime command host])) := rfl

/-- Noting the commands changes nothing. -/
theorem ensureImage_noted (runtime : Runtime ρ) (settings : RunnerSettings) (check : Image.Check)
    (host : Host ρ) : ∃ listed, noted runtime settings check host =
      ((ensureImage runtime settings check host).1,
        (ensureImage runtime settings check host).2.watched listed) ∧
      (isDue check host = true → ∃ rest,
        listed = carried runtime (Image.pullCommand settings) (consult check.key host).2 :: rest) := by
  have due_watched := isDue_watched check host []
  cases due : isDue check host with
  | false =>
    rw [due] at due_watched
    refine ⟨[], ?_, nofun⟩
    rw [noted, ensureImage_of_fresh _ _ due_watched, ensureImage_of_fresh _ _ due, consult_watched]
  | true =>
    rw [due] at due_watched
    rw [noted, ensureImage_of_due _ _ due_watched, ensureImage_of_due _ _ due, consult_watched]
    dsimp only
    rw [execute_listing]
    cases succeeds : Analysis.succeeds
        (execute runtime (Image.pullCommand settings) (consult check.key host).2).1 with
    | false =>
      simp only [Bool.false_eq_true, if_false]
      exact ⟨_, rfl, fun _ => ⟨_, rfl⟩⟩
    | true =>
      simp only [if_true]
      exact ⟨_, rfl, fun _ => ⟨_, rfl⟩⟩

/-! ### After a pull was forgotten -/

/-- A host on which the last pull under a key was forgotten, in the file of a path. -/
structure Forgotten (path key : String) (host : Host ρ) : Prop where
  pulls : host.pulls = .file path
  lacks : Freshness.Lacks path key host.volume.disk

/-- Pulls are looked up one after the other, each with a first call that is not refused. -/
inductive LooksUp : Host ρ → Host ρ → Prop where
  | none (host : Host ρ) : LooksUp host host
  | more {host later : Host ρ} (key : String) (serves : host.volume.Serves)
    (rest : LooksUp (consult key host).2 later) : LooksUp host later

theorem Forgotten.consult (forgotten : Forgotten path key host) (serves : host.volume.Serves)
    (other : String) : Forgotten path key (consult other host).2 ∧
      (other = key → (consult other host).1 = none) := by
  obtain ⟨pulls, lacks⟩ := forgotten
  obtain ⟨found, later, looked, same, missing⟩ := lacks.last? serves other
  obtain ⟨last, volume, found', consults⟩ := consult_eq other host
  rw [pulls, looked] at found'
  cases found'
  rw [consults]
  exact ⟨⟨pulls, same ▸ lacks⟩, missing⟩

/-- Looking up brings back nothing. -/
theorem Forgotten.looksUp (forgotten : Forgotten path key host) (looks : LooksUp host later) :
    Forgotten path key later := by
  induction looks with
  | none => exact forgotten
  | more other serves rest ih => exact ih (forgotten.consult serves other).1

theorem Forgotten.isDue (forgotten : Forgotten path key host) (serves : host.volume.Serves)
    (now : Instant) (windowMillis : Nat) : isDue ⟨key, now, windowMillis⟩ host = true := by
  rw [Host.isDue, (forgotten.consult serves key).2 rfl]
  rfl

theorem ensureImage_ne_cached (due : Host.isDue check host = true) :
    (ensureImage runtime settings check host).1 ≠ .ok .cached := by
  rw [ensureImage_of_due _ _ due]
  dsimp only
  split
  · nofun
  · nofun

/-- The last pull of the image is not known, and a check under the key of the image issues the pull,
whatever the time is and however wide the window. -/
structure PullsNext (settings : RunnerSettings) (host : Host ρ) : Prop where
  unknown : (lastPull? settings host).1 = none
  issues (runtime : Runtime ρ) (now : Instant) (windowMillis : Nat) :
    let check : Image.Check := ⟨settings.cacheKey, now, windowMillis⟩
    (ensureImage runtime settings check host).1 ≠ .ok .cached ∧
      ∃ rest, noted runtime settings check host =
        ((ensureImage runtime settings check host).1,
          (ensureImage runtime settings check host).2.watched
            (carried runtime (Image.pullCommand settings) (consult check.key host).2 :: rest))

theorem Forgotten.pullsNext (forgotten : Forgotten path settings.cacheKey host)
    (serves : host.volume.Serves) : PullsNext settings host := by
  refine ⟨(forgotten.consult serves settings.cacheKey).2 rfl, fun runtime now windowMillis => ?_⟩
  intro check
  have due : Host.isDue check host = true := forgotten.isDue serves now windowMillis
  obtain ⟨listed, notes, first⟩ := ensureImage_noted runtime settings check host
  obtain ⟨rest, rfl⟩ := first due
  exact ⟨ensureImage_ne_cached due, rest, notes⟩

/-- What forgetting the last pull of the image comes to on a host. -/
theorem invalidateImage_eq (settings : RunnerSettings) (host : Host ρ) :
    invalidateImage settings host = match host.pulls.forget settings.cacheKey host.volume with
      | (.ok pulls, volume) => (.ok (), { host with volume, pulls })
      | (.error failure, volume) => (.error failure, { host with volume }) := by
  simp only [invalidateImage, bind, StateT.bind, get, getThe, MonadStateOf.get, StateT.get, pure,
    onFiles, Session.attempt_apply]
  rcases host.pulls.forget settings.cacheKey host.volume with ⟨failure | pulls, volume⟩ <;> rfl

theorem forget_of_invalidateImage (kept : host.pulls = .file path)
    (invalidates : invalidateImage settings host = (.ok (), later)) :
    (Freshness.file path).forget settings.cacheKey host.volume = (.ok (.file path), later.volume) ∧
      later.pulls = .file path := by
  rw [invalidateImage_eq, kept] at invalidates
  cases ran : (Freshness.file path).forget settings.cacheKey host.volume with
  | mk result volume =>
    rw [ran] at invalidates
    cases result with
    | error failure => cases invalidates
    | ok store =>
      obtain ⟨-, rfl⟩ := Freshness.changeTable_of_forget ran
      cases invalidates
      exact ⟨rfl, rfl⟩

/-- A key that was forgotten without a failure is gone, and the other keys that stood in the record
stand as before. -/
theorem forgotten_of_invalidateImage (kept : host.pulls = .file path)
    (sound : host.volume.disk.Sound)
    (other : host.volume.disk.isDirectory (backupPath path) = false)
    (invalidates : invalidateImage settings host = (.ok (), later)) :
    Forgotten path settings.cacheKey later ∧
      ∀ key, key ≠ settings.cacheKey → later.volume.disk.file? path ≠ none →
        (Freshness.file path).Legible later.volume → (consult key later).1 = (consult key host).1 := by
  obtain ⟨forgets, keeps⟩ := forget_of_invalidateImage kept invalidates
  obtain ⟨lacks, same⟩ := Freshness.lacks_of_forget sound other forgets
  refine ⟨⟨keeps, lacks⟩, fun key apart there legible => ?_⟩
  have found := same key apart there legible
  obtain ⟨last, volume, before, consults⟩ := consult_eq key host
  obtain ⟨last', volume', after, consults'⟩ := consult_eq key later
  rw [kept] at before
  rw [keeps] at after
  rw [before, after] at found
  rw [consults, consults']
  exact Except.ok.inj found

end StyleMonitor.Host
