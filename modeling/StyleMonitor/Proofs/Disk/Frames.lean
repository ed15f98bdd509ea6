import StyleMonitor.Freshness
import StyleMonitor.Proofs.Disk.Directories

/-!
# What calls leave alone

No call moves a program to another directory, so no session does. And where directories are made,
everything stays that was there.
-/

namespace StyleMonitor

namespace Disk

variable {disk other : Disk} {path source target : String} {content : Bytes}

/-! ### Calls and the current directory -/

theorem makeDirectory_current (h : disk.makeDirectory path = .ok other) :
    other.current = disk.current := by
  obtain ⟨_, -, rfl⟩ := exists_of_makeDirectory h
  rfl

theorem create_current (h : disk.create path = .ok other) : other.current = disk.current := by
  obtain ⟨_, -, -, rfl⟩ := exists_of_create h
  rfl

theorem remove_current (h : disk.remove path = .ok other) : other.current = disk.current := by
  obtain ⟨_, _, _, -, -, -, rfl⟩ := exists_of_remove h
  rfl

theorem write_current (h : disk.write path content = .ok other) :
    other.current = disk.current := by
  obtain ⟨_, _, _, -, -, -, rfl⟩ := exists_of_write h
  rfl

theorem rename_current (h : disk.rename source target = .ok other) :
    other.current = disk.current := by
  obtain ⟨_, _, _, _, -, -, -, ⟨-, rfl⟩ | ⟨-, -, -, rfl⟩⟩ := rename_ok_iff.mp h
  · rfl
  · rfl

/-! ### What a walk finds -/

variable {tree : Tree} {follow : Bool} {links : Nat} {start : Place} {names : List String}
  {spot : Spot}

/-- The end of a walk: what is there, by a name, or a directory that it has come to before. -/
def EndsAt (tree : Tree) (spot : Spot) : Prop :=
  spot.named = true ∧ tree.lookup spot.place = spot.node ∨
    spot.named = false ∧ spot.node = some .directory

theorem walk_endsAt (h : walk tree follow links start names = .ok spot) : EndsAt tree spot := by
  have walks := walks_of_ok h
  clear h
  induction walks with
  | nil => exact Or.inr ⟨rfl, rfl⟩
  | last => exact Or.inl ⟨rfl, rfl⟩
  | here _ ih | parent _ ih => exact ih
  | directory _ _ _ _ ih | link _ _ _ _ ih => exact ih

/-- At the end of a walk that ends in a name is what it says, whatever the tree is like. -/
theorem lookup_of_named (h : walk tree follow links start names = .ok spot)
    (named : spot.named = true) : tree.lookup spot.place = spot.node := by
  rcases walk_endsAt h with ⟨-, stands⟩ | ⟨unnamed, -⟩
  · exact stands
  · cases named.symm.trans unnamed

/-- A walk that does not end in a name ends at a directory. -/
theorem directory_of_unnamed (h : walk tree follow links start names = .ok spot)
    (unnamed : spot.named = false) : spot.node = some .directory := by
  rcases walk_endsAt h with ⟨named, -⟩ | ⟨-, home⟩
  · cases unnamed.symm.trans named
  · exact home

end Disk

namespace Session

variable {α β : Type} {session : Session α}

/-! ### Sessions and the current directory -/

/-- Whether a session ends in the directory that it starts in, whichever calls are refused. -/
def Stays (session : Session α) : Prop :=
  ∀ volume, (session volume).2.disk.current = volume.disk.current

namespace Stays

theorem pure (answer : α) : Stays (Pure.pure answer) :=
  fun _ => rfl

theorem throw (failure : Failure) : Stays (MonadExcept.throw failure : Session α) :=
  fun _ => rfl

theorem bind {next : α → Session β} (stays : Stays session) (rest : ∀ answer, Stays (next answer)) :
    Stays (session >>= next) := by
  intro volume
  rw [bind_apply]
  have first := stays volume
  cases ran : session volume with
  | mk outcome later =>
    rw [ran] at first
    cases outcome with
    | ok answer => exact (rest answer later).trans first
    | error failure => exact first

theorem attempt (stays : Stays session) : Stays (Session.attempt session) :=
  stays

theorem ignoring {session : Session Unit} (stays : Stays session) :
    Stays (Session.ignoring session) :=
  stays

theorem call {act : Disk → Except Failure (α × Disk)}
    (stays : ∀ disk answer other, act disk = .ok (answer, other) → other.current = disk.current) :
    Stays (Session.call act) := by
  rintro ⟨disk, refusals⟩
  unfold Session.call
  dsimp only
  split
  · rfl
  · split
    · next acted => exact stays _ _ _ acted
    · rfl

theorem ask (question : Disk → Except Failure α) : Stays (Session.ask question) := by
  refine call fun disk answer other h => ?_
  cases asked : question disk with
  | error failure =>
    rw [asked] at h
    cases h
  | ok own =>
    rw [asked] at h
    cases h
    rfl

theorem change {act : Disk → Except Failure Disk}
    (stays : ∀ disk other, act disk = .ok other → other.current = disk.current) :
    Stays (Session.change act) := by
  refine call fun disk answer other h => ?_
  cases acted : act disk with
  | error failure =>
    rw [acted] at h
    cases h
  | ok own =>
    rw [acted] at h
    cases h
    exact stays _ _ acted

end Stays

theorem isThere_stays (path : String) : Stays (isThere path) :=
  .bind (.attempt (.ask _)) fun result => by cases result <;> exact .pure _

theorem readText_stays (path : String) : Stays (readText path) :=
  .bind (.ask _) fun content => by split <;> first | exact .pure _ | exact .throw _

theorem remove_stays (path : String) : Stays (remove path) :=
  .change fun _ _ => Disk.remove_current

theorem rename_stays (source target : String) : Stays (rename source target) :=
  .change fun _ _ => Disk.rename_current

/-- What the making of one directory keeps, the making of several keeps. -/
theorem makeDirectories_keeps {keeps : Disk → Prop} {volume : Volume}
    (each : ∀ disk other above, keeps disk → disk.makeDirectory above = .ok other → keeps other)
    (start : keeps volume.disk) (path : String) : keeps (makeDirectories path volume).2.disk := by
  obtain ⟨disk, refusals⟩ := volume
  have ensures : Ensures (makeDirectories path) disk (fun _ => keeps) keeps :=
    makeDirectories_ensures (fun above _ one two => each one two above) start
  have kept := ensures refusals
  cases ran : makeDirectories path ⟨disk, refusals⟩ with
  | mk outcome later =>
    rw [ran] at kept
    cases outcome <;> exact kept

theorem makeDirectories_stays (path : String) : Stays (makeDirectories path) := fun volume =>
  makeDirectories_keeps (fun _ _ _ same made => (Disk.makeDirectory_current made).trans same)
    (Eq.refl volume.disk.current) path

theorem makeTemporary_stays (directory : String) : Stays (makeTemporary directory) := by
  refine .call fun disk answer other h => ?_
  dsimp only at h
  cases created : disk.create (Path.join (Path.join disk.currentPath directory)
      (freshName disk.tree)) with
  | error failure =>
    rw [created] at h
    cases h
  | ok own =>
    rw [created] at h
    obtain ⟨-, rfl⟩ := Prod.mk.inj (Except.ok.inj h)
    exact Disk.create_current created

theorem replaceParked_stays (temporary path : String) : Stays (replaceParked temporary path) := by
  refine .bind (.ignoring (remove_stays _)) fun _ => .bind (rename_stays _ _) fun _ =>
    .bind (.attempt (rename_stays _ _)) fun outcome => ?_
  cases outcome with
  | ok => exact .ignoring (remove_stays _)
  | error failure => exact .bind (.ignoring (rename_stays _ _)) fun _ => .throw _

theorem settle_stays (temporary path : String) : Stays (settle temporary path) := by
  refine .bind (.attempt (rename_stays _ _)) fun outcome => ?_
  cases outcome with
  | ok => exact .pure _
  | error failure =>
    refine .bind (isThere_stays _) fun there => ?_
    split
    · exact replaceParked_stays _ _
    · exact .throw _

theorem atomicWrite_stays (path : String) (content : Bytes) : Stays (atomicWrite path content) := by
  refine .bind (makeDirectories_stays _) fun _ => .bind (makeTemporary_stays _) fun temporary =>
    .bind (.attempt (.bind (.change fun _ _ => Disk.write_current) fun _ =>
      .bind (.change ?_) fun _ => settle_stays _ _)) fun outcome => ?_
  · rintro disk _ ⟨⟩
    rfl
  · cases outcome with
    | ok => exact .pure _
    | error failure => exact .bind (.ignoring (remove_stays _)) fun _ => .throw _

theorem recoverBackup_stays (path : String) : Stays (recoverBackup path) := by
  refine .bind (isThere_stays _) fun there => ?_
  split
  · exact .pure _
  refine .bind (isThere_stays _) fun parked => ?_
  split
  · exact .ignoring (rename_stays _ _)
  · exact .pure _

/-! ### Making directories -/

/-- Where directories are made, everything stays that was there. -/
theorem lookup_of_makeDirectories {path : String} {volume : Volume} {place : Place} {node : Node}
    (stands : volume.disk.tree.lookup place = some node) :
    (makeDirectories path volume).2.disk.tree.lookup place = some node := by
  have each (one two : Disk) (above : String) (kept : one.tree.lookup place = some node)
      (made : one.makeDirectory above = .ok two) : two.tree.lookup place = some node := by
    obtain ⟨new, spot, rfl⟩ := Disk.exists_of_makeDirectory made
    have missing := Disk.lookup_of_named (Disk.spot_ok_iff.mp spot).2 rfl
    rw [Tree.lookup_insert_of_ne _ ?_ _, kept]
    rintro rfl
    cases kept.symm.trans missing
  exact makeDirectories_keeps each stands path

end Session

namespace Freshness

open Session

variable {pulls : Freshness}

theorem readTable_stays (path : String) : Stays (readTable path) :=
  .bind (recoverBackup_stays _) fun _ => .bind (.attempt (readText_stays _)) fun result => by
    cases result <;> exact .pure _

theorem last?_stays (pulls : Freshness) (key : String) : Stays (pulls.last? key) := by
  cases pulls with
  | memory => exact .pure _
  | file path => exact .bind (readTable_stays _) fun _ => .pure _

theorem record_stays (pulls : Freshness) (key : String) (instant : Instant) :
    Stays (pulls.record key instant) := by
  cases pulls with
  | memory => exact .pure _
  | file path =>
    exact .bind (.bind (readTable_stays _) fun _ => atomicWrite_stays _ _) fun _ => .pure _

end Freshness

end StyleMonitor
