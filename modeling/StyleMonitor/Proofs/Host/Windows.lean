import StyleMonitor.Proofs.Freshness.Recording
import StyleMonitor.Proofs.Host.ImageChecks

/-!
# Pulls are a window apart

Of checks that follow each other, each is made against the last pull as the record keeps it. So two
pulls are a window apart if the first is taken as it stands in the record: to the nanosecond in
memory, cut off to the millisecond in a file. By their own times they can be almost a millisecond
nearer to each other.
-/

namespace StyleMonitor

open Disk Session

variable {ρ : Type}

/-! ### The record between checks -/

namespace Freshness

variable {pulls kept : Freshness} {instant : Instant}

/-- The record as a program finds it that is started anew: one in memory is lost. -/
def reopened : Freshness → Freshness
  | memory _ => memory []
  | file path => file path

/-- A record keeps an instant up to what is past its whole milliseconds, unless it is too late to be
written. -/
theorem rounded_near (pulls : Freshness) (small : instant.millis < Nat.pow 2 64) :
    instant.nanos ≤ (pulls.rounded instant).nanos + instant.subMillis := by
  cases pulls with
  | memory =>
    simp only [Freshness.rounded, Instant.subMillis, Instant.perMilli]
    omega
  | file =>
    have limit : Nat.pow 2 64 = 2 ^ 64 := rfl
    simp only [Instant.millis, Instant.perMilli, limit] at small
    simp only [Freshness.rounded, Instant.ofMillis, Instant.subMillis, Instant.perMilli,
      clampedMillis, limit]
    split <;> omega

theorem SamePlace.rounded (same : pulls.SamePlace kept) (instant : Instant) :
    kept.rounded instant = pulls.rounded instant := by
  cases pulls <;> cases kept <;> first | rfl | exact same.elim

end Freshness

/-- No command touches the file of a record. -/
def Runtime.Spares (runtime : Runtime ρ) : Freshness → Prop
  | .memory _ => True
  | .file path => ∀ command state volume, Tended path volume.disk →
    Tended path (runtime command state volume).2.2.disk ∧
      (runtime command state volume).2.2.disk.held? path = volume.disk.held? path

theorem Runtime.Spares.of_samePlace {runtime : Runtime ρ} {pulls kept : Freshness}
    (spares : runtime.Spares pulls) (same : pulls.SamePlace kept) : runtime.Spares kept := by
  cases pulls <;> cases kept <;> first | trivial | exact same.elim | exact same ▸ spares

namespace Host

/-- What a program does in turn: it checks the image at a time, or it is started anew. -/
inductive Use where
  | check (now : Instant)
  | reopen
  deriving DecidableEq, Repr

/-- The times of the checks. -/
def checkTimes (uses : List Use) : List Instant :=
  uses.filterMap fun use =>
    match use with
    | .check now => some now
    | .reopen => none

/-- The times of the checks that have pulled the image. -/
def pullTimes (runtime : Runtime ρ) (settings : RunnerSettings) (key : String)
    (windowMillis : Nat) : List Use → Host ρ → List Instant
  | [], _ => []
  | .reopen :: later, host =>
    pullTimes runtime settings key windowMillis later { host with pulls := host.pulls.reopened }
  | .check now :: later, host =>
    let checked := ensureImage runtime settings ⟨key, now, windowMillis⟩ host
    let rest := pullTimes runtime settings key windowMillis later checked.2
    match checked.1 with
    | .ok .pulled => now :: rest
    | _ => rest

/-- Whether there is no last pull, or it was made a window ago, as it was `round`ed. -/
def Due (round : Instant → Instant) (windowMillis : Nat) (last : Option Instant)
    (now : Instant) : Prop :=
  ∀ pulled ∈ last, (round pulled).nanos + windowMillis * Instant.perMilli ≤ now.nanos

instance (round : Instant → Instant) (windowMillis : Nat) (last : Option Instant)
    (now : Instant) : Decidable (Due round windowMillis last now) :=
  inferInstanceAs (Decidable (∀ pulled ∈ last, _))

/-- The times among these at which a pull is due, if there is one whenever it is due. -/
def dueTimes (round : Instant → Instant) (windowMillis : Nat) :
    Option Instant → List Instant → List Instant
  | _, [] => []
  | last, now :: later =>
    if Due round windowMillis last now then
      now :: dueTimes round windowMillis (some now) later
    else dueTimes round windowMillis last later

/-- Whether a check records the pull that it comes to, if it comes to one. -/
def records (runtime : Runtime ρ) (settings : RunnerSettings) (check : Image.Check)
    (host : Host ρ) : Bool :=
  match repeated (stepImage runtime settings check) 2 .consult host with
  | (.record, later) => (later.pulls.record check.key check.now later.volume).1.isOk
  | _ => true

/-- Whether the record can be relied on all along: it can be read at each check, each pull is
recorded, and it is not lost when the program is started anew. -/
def Reliable (runtime : Runtime ρ) (settings : RunnerSettings) (key : String)
    (windowMillis : Nat) : List Use → Host ρ → Prop
  | [], _ => True
  | .reopen :: later, host => host.pulls.reopened = host.pulls ∧
    Reliable runtime settings key windowMillis later host
  | .check now :: later, host => host.pulls.Legible host.volume ∧
    records runtime settings ⟨key, now, windowMillis⟩ host = true ∧
    Reliable runtime settings key windowMillis later
      (ensureImage runtime settings ⟨key, now, windowMillis⟩ host).2

instance Reliable.decidable (runtime : Runtime ρ) (settings : RunnerSettings) (key : String)
    (windowMillis : Nat) : ∀ (uses : List Use) (host : Host ρ),
    Decidable (Reliable runtime settings key windowMillis uses host)
  | [], _ => isTrue trivial
  | .reopen :: later, host =>
    have := decidable runtime settings key windowMillis later host
    inferInstanceAs (Decidable (_ ∧ _))
  | .check now :: later, host =>
    have := decidable runtime settings key windowMillis later
      (ensureImage runtime settings ⟨key, now, windowMillis⟩ host).2
    inferInstanceAs (Decidable (_ ∧ _ ∧ _))

variable {runtime : Runtime ρ} {settings : RunnerSettings} {check : Image.Check} {key : String}
  {host later : Host ρ} {windowMillis : Nat} {round : Instant → Instant} {last : Option Instant}

/-- What stands in the record between checks: the last pull, as the record keeps it. -/
structure Knows (runtime : Runtime ρ) (round : Instant → Instant) (key : String)
    (last : Option Instant) (host : Host ρ) : Prop where
  tidy : host.pulls.Tidy host.volume.disk
  spares : runtime.Spares host.pulls
  rounds : ∀ instant, host.pulls.rounded instant = round instant
  stands : host.pulls.standing? host.volume.disk key = last.map round

/-- Looking up the last pull finds it, and leaves it in the record. -/
theorem Knows.consult (knows : Knows runtime round key last host)
    (legible : host.pulls.Legible host.volume) :
    (consult key host).1 = last.map round ∧ Knows runtime round key last (consult key host).2 := by
  obtain ⟨volume, found, tidy, standing⟩ := Freshness.last?_legible knows.tidy legible key
  obtain ⟨_, _, found', same⟩ := consult_eq key host
  rw [found] at found'
  cases found'
  rw [same]
  exact ⟨knows.stands, tidy, knows.spares, knows.rounds, (standing key).trans knows.stands⟩

theorem Knows.execute (knows : Knows runtime round key last host) (command : Command) :
    Knows runtime round key last (execute runtime command host).2 := by
  obtain ⟨volume, pulls, state⟩ := host
  obtain ⟨tidy, spares, rounds, stands⟩ := knows
  cases pulls with
  | memory pulls => exact ⟨trivial, trivial, rounds, stands⟩
  | file path =>
    obtain ⟨tended, held⟩ := spares command state volume tidy.2
    refine ⟨⟨tidy.1, tended⟩, spares, rounds, ?_⟩
    rw [← stands]
    exact congrArg (fun content => (Freshness.pullsIn content key).map fun millis : Nat =>
      Instant.ofMillis millis) held

/-- A pull that is recorded is the last one from then on. -/
theorem Knows.recorded (knows : Knows runtime round check.key last host)
    (writes : (host.pulls.record check.key check.now host.volume).1.isOk = true) :
    Knows runtime round check.key (some check.now) (host.recorded check) := by
  have ensures := Freshness.record_ensures_standing knows.tidy check.key check.now
    host.volume.refusals
  rcases ran : host.pulls.record check.key check.now host.volume with ⟨failure | kept, volume⟩
  · rw [ran] at writes
    cases writes
  · rw [ran] at ensures
    obtain ⟨same, tidy, stands⟩ := ensures
    have after : host.recorded check = ⟨volume, kept, host.runtime⟩ := by
      rw [Host.recorded, ran]
      rfl
    rw [after]
    refine ⟨tidy, knows.spares.of_samePlace same, fun instant => ?_, ?_⟩
    · rw [same.rounded, knows.rounds]
    · rw [stands, knows.rounds]
      rfl

/-- A check leaves in the record what stood there, as the image is not due or the pull fails. Or it
pulls the image: then the last pull was a window old, as the record kept it, and the new one stands
there. -/
theorem Knows.ensureImage (check : Image.Check) (knows : Knows runtime round check.key last host)
    (legible : host.pulls.Legible host.volume)
    (writes : records runtime settings check host = true) :
    ((ensureImage runtime settings check host).1 ≠ .ok .pulled ∧
      (Due round check.windowMillis last check.now →
        ∃ state volume, Analysis.succeeds
          (runtime (Image.pullCommand settings) state volume).1 = false) ∧
      Knows runtime round check.key last (ensureImage runtime settings check host).2) ∨
    (ensureImage runtime settings check host).1 = .ok .pulled ∧
      Due round check.windowMillis last check.now ∧
      Knows runtime round check.key (some check.now)
        (ensureImage runtime settings check host).2 := by
  obtain ⟨found, consulted⟩ := knows.consult legible
  have due_iff : isDue check host = true ↔ Due round check.windowMillis last check.now := by
    rw [isDue, Image.Check.isDue_iff, found]
    simp [Due]
  obtain ⟨pull?, prune?, result, after, checked, ran, pulled⟩ :=
    ensureImage_checked runtime settings check host
  rw [ran]
  cases checked with
  | fresh undue =>
    refine Or.inl ⟨fun same => Bool.false_ne_true (pulled.mp same), fun due => ?_, consulted⟩
    rw [due_iff.mpr due] at undue
    cases undue
  | failed due fails =>
    exact Or.inl ⟨fun same => Bool.false_ne_true (pulled.mp same), fun _ => ⟨_, _, fails⟩,
      consulted.execute _⟩
  | pulled due succeeds records =>
    subst records
    refine Or.inr ⟨pulled.mpr rfl, due_iff.mp due, ?_⟩
    rw [Host.records, repeated_to_record due succeeds] at writes
    exact ((consulted.execute _).recorded writes).execute _

/-! ### Rows of checks -/

variable {now : Instant} {uses : List Use}

/-- A check that does not pull is not among the pulls of its row. -/
theorem pullTimes_of_not_pulled
    (other : (ensureImage runtime settings ⟨key, now, windowMillis⟩ host).1 ≠ .ok .pulled) :
    pullTimes runtime settings key windowMillis (.check now :: uses) host =
      pullTimes runtime settings key windowMillis uses
        (ensureImage runtime settings ⟨key, now, windowMillis⟩ host).2 := by
  rw [pullTimes]
  split
  · contradiction
  · rfl

theorem pullTimes_of_pulled
    (pulled : (ensureImage runtime settings ⟨key, now, windowMillis⟩ host).1 = .ok .pulled) :
    pullTimes runtime settings key windowMillis (.check now :: uses) host =
      now :: pullTimes runtime settings key windowMillis uses
        (ensureImage runtime settings ⟨key, now, windowMillis⟩ host).2 := by
  simp only [pullTimes, pulled]

theorem mem_checkTimes_of_mem_pullTimes {instant : Instant}
    (pulled : instant ∈ pullTimes runtime settings key windowMillis uses host) :
    instant ∈ checkTimes uses := by
  induction uses generalizing host with
  | nil => exact pulled
  | cons use uses ih =>
    cases use with
    | reopen => exact ih pulled
    | check now =>
      simp only [pullTimes] at pulled
      split at pulled
      · rcases List.mem_cons.mp pulled with rfl | later
        · exact List.mem_cons_self
        · exact List.mem_cons_of_mem _ (ih later)
      · exact List.mem_cons_of_mem _ (ih pulled)

/-- Whatever is recorded last, the pulls of a row of checks come a window later, and a window after
each other. -/
theorem Knows.apart (knows : Knows runtime round key last host)
    (reliable : Reliable runtime settings key windowMillis uses host)
    (ordered : (checkTimes uses).Pairwise fun first second => first.nanos ≤ second.nanos) :
    (∀ next ∈ pullTimes runtime settings key windowMillis uses host,
      Due round windowMillis last next) ∧
    (pullTimes runtime settings key windowMillis uses host).Pairwise fun first second =>
      (round first).nanos + windowMillis * Instant.perMilli ≤ second.nanos := by
  induction uses generalizing host last with
  | nil => exact ⟨fun _ none => (List.not_mem_nil none).elim, List.Pairwise.nil⟩
  | cons use uses ih =>
    cases use with
    | reopen =>
      obtain ⟨kept, reliable⟩ := reliable
      rw [pullTimes, kept]
      exact ih knows reliable ordered
    | check now =>
      obtain ⟨legible, writes, reliable⟩ := reliable
      obtain ⟨before, ordered⟩ := List.pairwise_cons.mp ordered
      rcases Knows.ensureImage ⟨key, now, windowMillis⟩ knows legible writes with
        ⟨other, -, knows⟩ | ⟨pulled, due, knows⟩
      · rw [pullTimes_of_not_pulled other]
        exact ih knows reliable ordered
      · obtain ⟨after, apart⟩ := ih knows reliable ordered
        rw [pullTimes_of_pulled pulled]
        refine ⟨fun next member earlier same => ?_,
          List.pairwise_cons.mpr ⟨fun next member => after next member now rfl, apart⟩⟩
        rcases List.mem_cons.mp member with rfl | more
        · exact due earlier same
        · exact (due earlier same).trans (before next (mem_checkTimes_of_mem_pullTimes more))

/-- If no pull fails, there is one at each check at which it is due. -/
theorem Knows.pullTimes_eq (knows : Knows runtime round key last host)
    (reliable : Reliable runtime settings key windowMillis uses host)
    (succeeds : ∀ state volume,
      Analysis.succeeds (runtime (Image.pullCommand settings) state volume).1 = true) :
    pullTimes runtime settings key windowMillis uses host =
      dueTimes round windowMillis last (checkTimes uses) := by
  induction uses generalizing host last with
  | nil => rfl
  | cons use uses ih =>
    cases use with
    | reopen =>
      obtain ⟨kept, reliable⟩ := reliable
      rw [pullTimes, kept]
      exact ih knows reliable
    | check now =>
      obtain ⟨legible, writes, reliable⟩ := reliable
      have times : checkTimes (.check now :: uses) = now :: checkTimes uses := rfl
      rw [times, dueTimes]
      rcases Knows.ensureImage ⟨key, now, windowMillis⟩ knows legible writes with
        ⟨other, undue, knows⟩ | ⟨pulled, due, knows⟩
      · rw [pullTimes_of_not_pulled other, if_neg ?_]
        · exact ih knows reliable
        · intro due
          obtain ⟨state, volume, fails⟩ := undue due
          rw [succeeds] at fails
          cases fails
      · rw [pullTimes_of_pulled pulled, if_pos due]
        exact congrArg _ (ih knows reliable)

/-- Pulls of a row of checks are a window apart, if the first is taken as the record keeps it. What
a file does not keep is what is past the whole milliseconds, so by their own times they can be that
much nearer. If no pull fails, there is one at each check at which the last one is so old. -/
theorem pulls_window_apart (runtime : Runtime ρ) (settings : RunnerSettings) (key : String)
    (windowMillis : Nat) (uses : List Use) (host : Host ρ)
    (tidy : host.pulls.Tidy host.volume.disk)
    (bare : host.pulls.standing? host.volume.disk key = none)
    (spares : runtime.Spares host.pulls)
    (reliable : Reliable runtime settings key windowMillis uses host)
    (ordered : (checkTimes uses).Pairwise fun first second => first.nanos ≤ second.nanos) :
    ((pullTimes runtime settings key windowMillis uses host).Pairwise fun first second =>
      (host.pulls.rounded first).nanos + windowMillis * Instant.perMilli ≤ second.nanos ∧
      (first.millis < Nat.pow 2 64 →
        first.nanos + windowMillis * Instant.perMilli ≤ second.nanos + first.subMillis)) ∧
    ((∀ state volume,
        Analysis.succeeds (runtime (Image.pullCommand settings) state volume).1 = true) →
      pullTimes runtime settings key windowMillis uses host =
        dueTimes host.pulls.rounded windowMillis none (checkTimes uses)) := by
  have knows : Knows runtime host.pulls.rounded key none host := ⟨tidy, spares, fun _ => rfl, bare⟩
  refine ⟨?_, knows.pullTimes_eq reliable⟩
  refine (knows.apart reliable ordered).2.imp fun {first second} apart => ⟨apart, fun small => ?_⟩
  have near := host.pulls.rounded_near small
  omega

/-- Three checks with a window of two milliseconds, with the program started anew after the first.
The last one pulls, though the first pull is 1.6 milliseconds ago. -/
theorem pulls_window_apart_reopened :
    let quiet : Runtime Unit := fun _ state volume => (.ok {}, state, volume)
    let host : Host Unit := ⟨{}, .file "s.json", ()⟩
    let uses : List Use := [.check ⟨500000⟩, .reopen, .check ⟨1900000⟩, .check ⟨2100000⟩]
    pullTimes quiet {} "lastImagePull" 2 uses host =
        dueTimes host.pulls.rounded 2 none [⟨500000⟩, ⟨1900000⟩, ⟨2100000⟩] ∧
      pullTimes quiet {} "lastImagePull" 2 uses host = [⟨500000⟩, ⟨2100000⟩] ∧
      (pullTimes quiet {} "lastImagePull" 2 uses host).Pairwise fun first second =>
        (host.pulls.rounded first).nanos + 2 * Instant.perMilli ≤ second.nanos ∧
        (first.millis < Nat.pow 2 64 →
          first.nanos + 2 * Instant.perMilli ≤ second.nanos + first.subMillis) := by
  intro quiet host uses
  have named : Path.fileName? "s.json" = some "s.json" := by decide +kernel
  have storable : Storable "s.json" :=
    ⟨by decide +kernel, fun n => named ▸ fun same =>
      ne_temporaryName (by decide +kernel) n (Option.some.inj same)⟩
  have own : Disk.leads {} "s.json" = some (["s.json"], true) := by decide +kernel
  have parked : Disk.leads {} (backupPath "s.json") = some (["s.bak"], true) := by decide +kernel
  have tended : Tended "s.json" {} :=
    tended_of_leads ⟨Tree.grounded_of_mem (by decide +kernel), rfl⟩ (by decide +kernel)
      (by decide +kernel) own (Or.inl rfl) parked (Or.inl rfl)
  have reliable : Reliable quiet {} "lastImagePull" 2 uses host := by decide +kernel
  obtain ⟨apart, whenever⟩ := pulls_window_apart quiet {} "lastImagePull" 2 uses host
    ⟨storable, tended⟩ (by decide +kernel) (fun _ _ _ tended => ⟨tended, rfl⟩) reliable
    (by decide +kernel)
  exact ⟨whenever fun _ _ => rfl, by decide +kernel, apart⟩

/-- With a window of a millisecond there are two pulls that are a tenth of it apart, if the record
is kept in a file. If it is kept in memory the second check finds the first pull. -/
theorem pulls_less_than_window_apart :
    let quiet : Runtime Unit := fun _ state volume => (.ok {}, state, volume)
    let uses : List Use := [.check ⟨900000⟩, .check ⟨1000000⟩]
    let written : Host Unit := ⟨{}, .file "s.json", ()⟩
    let remembered : Host Unit := ⟨{}, .memory [], ()⟩
    written.pulls.standing? written.volume.disk "lastImagePull" = none ∧
      Reliable quiet {} "lastImagePull" 1 uses written ∧
      pullTimes quiet {} "lastImagePull" 1 uses written = [⟨900000⟩, ⟨1000000⟩] ∧
      pullTimes quiet {} "lastImagePull" 1 uses remembered = [⟨900000⟩] := by
  intro quiet uses written remembered
  exact ⟨by decide +kernel, by decide +kernel, by decide +kernel, by decide +kernel⟩

end Host

end StyleMonitor
