import StyleMonitor.Proofs.Disk.Reach
import StyleMonitor.Proofs.Freshness.Refinement

/-!
# What stands in a record

A record that is kept in memory holds the last pull to the nanosecond, one that is kept in a file in
whole milliseconds. Once a pull was recorded the record holds it, whichever calls were refused on
the way: a table that could not be read is replaced, and so much of the file is always written.
-/

namespace StyleMonitor

open Disk Session

variable {disk : Disk} {path : String}

namespace Session

/-- Putting the parked file back leaves a path in order, whether it comes to that or not. -/
theorem recoverBackup_ensures (storable : Storable path) (tended : Tended path disk) :
    Ensures (recoverBackup path) disk (fun _ => Tended path) (Tended path) := by
  refine .bind (.isThere (fun _ => .pure tended) (.bind (.isThere (fun _ => ?_) (.pure tended))))
  refine .ignoring (.change ?_ tended)
  intro after renamed
  obtain ⟨moved, renames⟩ := rename_renames tended.sound tended.plainBackup tended.plain
    (storable.apart disk).symm renamed
  exact
    { sound := renames.sound
      upward := tended.upward.alike renames.alike tended.sound renames.sound
      plain := renames.alike.plain tended.plain
      plainBackup := renames.alike.plain tended.plainBackup
      recoverable := fun some => absurd renames.gone some }

end Session

theorem Freshness.readTable_indifferent (path : String) : Indifferent (readTable path) :=
  .bind (recoverBackup_indifferent _) fun _ => .bind (.attempt (readText_indifferent _))
    fun result => by cases result <;> exact .pure _

namespace Freshness

variable {pulls : Freshness} {key : String} {instant : Instant}

/-- Whether a record can be kept: in memory, or in a file whose path is in order. -/
def Tidy : Freshness → Disk → Prop
  | memory _, _ => True
  | file path, disk => Storable path ∧ Tended path disk

/-- What stands in a record under a key. -/
def standing? (pulls : Freshness) (disk : Disk) (key : String) : Option Instant :=
  match pulls with
  | memory pulls => pulls.lookup key
  | file path => (pullsIn (disk.held? path) key).map fun millis : Nat => .ofMillis millis

/-- An instant as a record keeps it. -/
def rounded (pulls : Freshness) (instant : Instant) : Instant :=
  match pulls with
  | memory _ => instant
  | file _ => .ofMillis (clampedMillis instant)

/-- Reading a table leaves its path in order. What cannot be read counts as an empty table. -/
theorem readTable_ensures (storable : Storable path) (tended : Tended path disk) :
    Ensures (readTable path) disk (fun table later => table.Sound ∧ Tended path later)
      (Tended path) := by
  refine .bind ((recoverBackup_ensures storable tended).mono ?_ fun _ tended => tended)
  intro _ later tended
  refine .bind (.attempt ((readText_ensures fun failure => ?_).mono ?_ fun _ failed => failed))
  · exact .pure ⟨.nil, tended⟩
  · rintro text _ rfl
    exact .pure ⟨(PullTable.lookup_ofText? text "").1, tended⟩

/-- Once a pull was recorded in a file, the file holds it. -/
theorem recordFile_ensures (storable : Storable path) (tended : Tended path disk) (key : String)
    (instant : Instant) :
    Ensures ((file path).record key instant) disk
      (fun store later => store = file path ∧ Tended path later ∧
        pullsIn (later.held? path) key = some (clampedMillis instant))
      (Tended path) := by
  refine .bind (.bind ((readTable_ensures storable tended).mono ?_ fun _ tended => tended))
  rintro table later ⟨sound, tended⟩
  refine (atomicWrite_ensures storable tended _).mono ?_ fun _ failed => failed.1
  rintro _ written ⟨tended, holds⟩
  have inserted := sound.insert key (recordedMillis_lt instant)
  refine .pure ⟨rfl, tended, ?_⟩
  rw [held?, holds, Option.some_or, pullsIn_text inserted]
  dsimp only
  rw [PullTable.lookup_insert, if_pos rfl, recordedMillis_eq]

/-- Two records in memory, or in one file. -/
def SamePlace : Freshness → Freshness → Prop
  | memory _, memory _ => True
  | file path, file other => path = other
  | _, _ => False

/-- Once a pull was recorded it stands in the record. -/
theorem record_ensures_standing (tidy : pulls.Tidy disk) (key : String) (instant : Instant) :
    Ensures (pulls.record key instant) disk
      (fun kept later => pulls.SamePlace kept ∧ kept.Tidy later ∧
        kept.standing? later key = some (pulls.rounded instant))
      pulls.Tidy := by
  cases pulls with
  | memory pulls =>
    refine .pure ⟨trivial, trivial, ?_⟩
    rw [standing?, List.lookup_cons_self]
    rfl
  | file path =>
    obtain ⟨storable, tended⟩ := tidy
    refine (recordFile_ensures storable tended key instant).mono ?_
      fun later tended => ⟨storable, tended⟩
    rintro _ later ⟨rfl, tended, holds⟩
    refine ⟨rfl, ⟨storable, tended⟩, ?_⟩
    rw [standing?, holds]
    rfl

/-! ### Looking up -/

/-- None of the calls is refused that looking up a pull takes. -/
def Legible : Freshness → Volume → Prop
  | memory _, _ => True
  | file path, volume =>
    ∀ refusal ∈ volume.refusals.take (readingCalls path volume.disk), refusal = none

instance (pulls : Freshness) (volume : Volume) : Decidable (pulls.Legible volume) :=
  match pulls with
  | memory _ => isTrue trivial
  | file path => inferInstanceAs (Decidable (∀ refusal ∈
      volume.refusals.take (readingCalls path volume.disk), refusal = none))

theorem exists_letRead {volume : Volume} (legible : (file path).Legible volume) :
    ∃ refusals, volume.granting (readingCalls path volume.disk) =
      letRead path volume.disk refusals := by
  obtain ⟨disk, refusals⟩ := volume
  generalize calls : readingCalls path disk = count
  refine ⟨(refusals ++ List.replicate count none).drop count, ?_⟩
  have first : (refusals ++ List.replicate count none).take count = List.replicate count none := by
    rw [List.eq_replicate_iff]
    refine ⟨by simp, fun refusal member => ?_⟩
    rw [List.take_append] at member
    rcases List.mem_append.mp member with own | granted
    · rw [← calls] at own
      exact legible refusal own
    · exact List.eq_of_mem_replicate (List.mem_of_mem_take granted)
  have whole := List.take_append_drop count (refusals ++ List.replicate count none)
  rw [first] at whole
  rw [letRead, calls, whole]
  rfl

/-- Without a refusal the table is read that the path holds, and that goes on being held. -/
theorem readTable_legible {volume : Volume} (storable : Storable path)
    (tended : Tended path volume.disk) (legible : (file path).Legible volume) :
    ∃ later, readTable path volume = (.ok (tableIn (volume.disk.held? path)), later) ∧
      Tended path later.disk ∧ later.disk.held? path = volume.disk.held? path := by
  obtain ⟨refusals, granted⟩ := exists_letRead legible
  obtain ⟨read, tended', held⟩ := readTable_letRead storable tended refusals
  obtain ⟨left, same⟩ := readTable_indifferent path volume (readingCalls path volume.disk)
  rw [granted, read] at same
  obtain ⟨table, disk⟩ := Prod.mk.inj same
  have here := congrArg Volume.disk disk
  dsimp only [Volume.granting] at here
  rw [here] at tended' held
  exact ⟨(readTable path volume).2, Prod.ext table.symm rfl, tended', held⟩

/-- What is looked up without a refusal is what stands in the record, and that goes on standing
there. -/
theorem last?_legible {volume : Volume} (tidy : pulls.Tidy volume.disk)
    (legible : pulls.Legible volume) (key : String) :
    ∃ later, pulls.last? key volume = (.ok (pulls.standing? volume.disk key), later) ∧
      pulls.Tidy later.disk ∧ ∀ other, pulls.standing? later.disk other =
        pulls.standing? volume.disk other := by
  cases pulls with
  | memory pulls => exact ⟨volume, rfl, trivial, fun _ => rfl⟩
  | file path =>
    obtain ⟨storable, tended⟩ := tidy
    obtain ⟨later, read, tended', held⟩ := readTable_legible storable tended legible
    refine ⟨later, ?_, ⟨storable, tended'⟩, fun other => ?_⟩
    · rw [last?, bind_ok read, standing?, (lookup_tableIn _ key).2]
      cases pullsIn (volume.disk.held? path) key <;> rfl
    · rw [standing?, standing?, held]

end Freshness

end StyleMonitor
