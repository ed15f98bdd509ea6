import StyleMonitor.Proofs.Disk.AtomicWrite

/-!
# Writes that no call keeps from succeeding

Calls past the end of the list of refusals are not refused, and it makes no difference to a session
whether that is said. So a write of which no call is refused succeeds wherever there is room for the
file and for the temporary file beside it.
-/

namespace StyleMonitor

/-! ### Calls past the end of the list -/

/-- A volume whose list of refusals goes on with calls that are not refused. -/
def Volume.granting (count : Nat) (volume : Volume) : Volume :=
  ⟨volume.disk, volume.refusals ++ List.replicate count none⟩

namespace Session

variable {α β : Type} {session : Session α}

/-- It makes no difference to a session whether it is said of calls past the end of the list that
they are not refused. -/
def Indifferent (session : Session α) : Prop :=
  ∀ volume count, ∃ left, session (volume.granting count) =
    ((session volume).1, (session volume).2.granting left)

namespace Indifferent

theorem pure (answer : α) : Indifferent (Pure.pure answer) :=
  fun _ count => ⟨count, rfl⟩

theorem throw (failure : Failure) : Indifferent (MonadExcept.throw failure : Session α) :=
  fun _ count => ⟨count, rfl⟩

theorem bind {next : α → Session β} (indifferent : Indifferent session)
    (rest : ∀ answer, Indifferent (next answer)) : Indifferent (session >>= next) := by
  intro volume count
  obtain ⟨left, same⟩ := indifferent volume count
  rw [bind_apply, bind_apply, same]
  rcases session volume with ⟨failure | answer, later⟩
  · exact ⟨left, rfl⟩
  · exact rest answer later left

theorem attempt (indifferent : Indifferent session) : Indifferent (Session.attempt session) := by
  intro volume count
  obtain ⟨left, same⟩ := indifferent volume count
  exact ⟨left, by rw [attempt_apply, same, attempt_apply]⟩

theorem ignoring {session : Session Unit} (indifferent : Indifferent session) :
    Indifferent (Session.ignoring session) :=
  bind (attempt indifferent) fun _ => pure _

theorem call (act : Disk → Except Failure (α × Disk)) : Indifferent (Session.call act) := by
  rintro ⟨disk, refusals⟩ count
  cases refusals with
  | nil =>
    cases count with
    | zero =>
      refine ⟨0, ?_⟩
      simp only [Volume.granting, List.replicate_zero, List.append_nil]
      rfl
    | succ count =>
      refine ⟨count, ?_⟩
      simp only [Volume.granting, List.nil_append, List.replicate_succ, call_spared]
      simp only [Session.call]
      cases act disk <;> rfl
  | cons refusal later =>
    refine ⟨count, ?_⟩
    cases refusal with
    | some cause => rfl
    | none =>
      simp only [Volume.granting, List.cons_append, call_spared]
      cases act disk <;> rfl

theorem ask (question : Disk → Except Failure α) : Indifferent (Session.ask question) :=
  call _

theorem change (act : Disk → Except Failure Disk) : Indifferent (Session.change act) :=
  call _

end Indifferent

theorem isThere_indifferent (path : String) : Indifferent (isThere path) :=
  .bind (.attempt (.ask _)) fun result => by cases result <;> exact .pure _

theorem readText_indifferent (path : String) : Indifferent (readText path) :=
  .bind (.ask _) fun content => by split <;> first | exact .pure _ | exact .throw _

theorem recoverBackup_indifferent (path : String) : Indifferent (recoverBackup path) := by
  refine .bind (isThere_indifferent _) fun there => ?_
  split
  · exact .pure _
  refine .bind (isThere_indifferent _) fun parked => ?_
  split
  · exact .ignoring (.change _)
  · exact .pure _

theorem isDirectory_indifferent (path : String) : Indifferent (isDirectory path) := by
  refine .bind (.attempt (.ask _)) fun result => ?_
  split <;> exact .pure _

theorem makeUpwards_indifferent (paths : List String) : Indifferent (makeUpwards paths) := by
  induction paths with
  | nil => exact .pure _
  | cons path above ih =>
    refine .bind (.attempt (.change _)) fun result => ?_
    split
    · exact .pure _
    · split
      · exact .bind ih fun _ => .pure _
      · split
        · refine .bind (isDirectory_indifferent _) fun there => ?_
          split
          · exact .pure _
          · exact .throw _
        · exact .throw _

theorem makeDownwards_indifferent (paths : List String) : Indifferent (makeDownwards paths) := by
  induction paths with
  | nil => exact .pure _
  | cons path below ih =>
    refine .bind (.attempt (.change _)) fun result => ?_
    split
    · exact ih
    · split
      · refine .bind (isDirectory_indifferent _) fun there => ?_
        split
        · exact ih
        · exact .throw _
      · exact .throw _

theorem makeDirectories_indifferent (path : String) : Indifferent (makeDirectories path) :=
  .bind (makeUpwards_indifferent _) fun _ => makeDownwards_indifferent _

theorem settle_indifferent (temporary path : String) : Indifferent (settle temporary path) := by
  refine .bind (.attempt (.change _)) fun result => ?_
  split
  · exact .pure _
  refine .bind (isThere_indifferent _) fun there => ?_
  split
  · -- The target is parked.
    refine .bind (.ignoring (.change _)) fun _ => .bind (.change _) fun _ => ?_
    refine .bind (.attempt (.change _)) fun result => ?_
    split
    · exact .ignoring (.change _)
    · exact .bind (.ignoring (.change _)) fun _ => .throw _
  · exact .throw _

theorem atomicWrite_indifferent (path : String) (content : Bytes) :
    Indifferent (atomicWrite path content) := by
  refine .bind (makeDirectories_indifferent _) fun _ => .bind (.call _) fun temporary => ?_
  refine .bind (.attempt (.bind (.change _) fun _ => .bind (.change _) fun _ =>
    settle_indifferent _ _)) fun result => ?_
  split
  · exact .pure _
  · exact .bind (.ignoring (.change _)) fun _ => .throw _

/-! ### Room for a file -/

open Disk

variable {disk : Disk} {path : String} {assured : Prop}

/-- There is room for a file at a path: its directory is there or can be made, a temporary file can
be made in it, and then the path leads to a place for a file. -/
def Writable (path : String) (disk : Disk) : Prop :=
  ∃ made temporary drafted, makeDirectories (directoryOf path) ⟨disk, []⟩ = (.ok (), ⟨made, []⟩) ∧
    makeTemporary (directoryOf path) ⟨made, []⟩ = (.ok temporary, ⟨drafted, []⟩) ∧
    drafted.Clear path

/-- Where there is room for the file, a write succeeds that is refused no call. -/
theorem atomicWrite_of_writable (storable : Storable path) (ready : Ready assured path disk)
    (writable : Writable path disk) (content : Bytes) :
    (atomicWrite path content ⟨disk, []⟩).1 = .ok () := by
  obtain ⟨made, temporary, drafted, raised, begun, clear⟩ := writable
  have prepared : Prepared path disk made := (makeDirectories_ensures
    (fun above member _ _ prepared made => prepared.makeDirectory member made)
    (.refl ready)).of_ok raised
  have holding := (makeTemporary_ensures storable (prepared.ready ready)).of_ok begun
  obtain ⟨filled, written⟩ :=
    write_of_file? holding.staged.sound holding.staged.plainTemporary holding.written content
  have sets := write_sets holding.staged.sound holding.staged.plainTemporary written
  have holding := holding.sets sets
  obtain ⟨placed, renamed⟩ := rename_of_clear holding.staged.sound holding.staged.plainTemporary
    holding.staged.plain holding.written (clear.alike sets.alike)
  -- Each call on the temporary file does what it says.
  have fills : write temporary content ⟨drafted, []⟩ = (.ok (), ⟨filled, []⟩) := by
    simp only [write, change, call, written]
    rfl
  have settles : settle temporary path ⟨filled, []⟩ = (.ok (), ⟨placed, []⟩) := by
    simp only [settle, bind_apply, attempt_apply, rename, change, call, renamed]
    rfl
  rw [atomicWrite, bind_ok raised, bind_ok begun, bind_apply, attempt_apply, bind_ok fills,
    bind_ok (show sync ⟨filled, []⟩ = (.ok (), ⟨filled, []⟩) from rfl), settles]
  rfl

/-- A write that fails was refused a call, or there was no room for the file. -/
theorem hindered_of_atomicWrite {content : Bytes} {refusals : List (Option Cause)}
    {failure : Failure} {later : Volume} (storable : Storable path) (ready : Ready assured path disk)
    (failed : atomicWrite path content ⟨disk, refusals⟩ = (.error failure, later)) :
    Refusing refusals ∨ ¬ Writable path disk := by
  by_contra free
  obtain ⟨unrefused, writable⟩ := not_or.mp free
  have none : refusals = List.replicate refusals.length none :=
    List.eq_replicate_iff.mpr ⟨rfl, fun refusal member => Option.eq_none_iff_forall_ne_some.mpr
      fun cause same => unrefused ⟨cause, same ▸ member⟩⟩
  obtain ⟨left, same⟩ := atomicWrite_indifferent path content ⟨disk, []⟩ refusals.length
  rw [Volume.granting, List.nil_append, ← none, failed,
    atomicWrite_of_writable storable ready (not_not.mp writable)] at same
  cases same

end Session

end StyleMonitor
