import StyleMonitor.Disk.Session

/-!
# Sessions call by call

What a session comes to on a volume, one part after the other; and what is certain of a session
whichever of its calls are refused.
-/

namespace StyleMonitor.Session

variable {α β : Type} {volume : Volume}

@[simp] theorem pure_apply (answer : α) (volume : Volume) :
    (pure answer : Session α) volume = (.ok answer, volume) := rfl

@[simp] theorem throw_apply (failure : Failure) (volume : Volume) :
    (throw failure : Session α) volume = (.error failure, volume) := rfl

/-- After an answer a sequence goes on, after a failure it ends. -/
theorem bind_apply (session : Session α) (next : α → Session β) (volume : Volume) :
    (session >>= next) volume = match session volume with
      | (.ok answer, later) => next answer later
      | (.error failure, later) => (.error failure, later) := by
  change (ExceptT.bind session next) volume = _
  simp only [ExceptT.bind, ExceptT.mk, bind, StateT.bind]
  cases session volume with
  | mk result later => cases result <;> rfl

@[simp] theorem attempt_apply (session : Session α) (volume : Volume) :
    attempt session volume = (.ok (session volume).1, (session volume).2) := rfl

theorem bind_ok {session : Session α} {next : α → Session β} {answer : α} {later : Volume}
    (h : session volume = (.ok answer, later)) : (session >>= next) volume = next answer later := by
  rw [bind_apply, h]

theorem bind_error {session : Session α} {next : α → Session β} {failure : Failure}
    {later : Volume} (h : session volume = (.error failure, later)) :
    (session >>= next) volume = (.error failure, later) := by
  rw [bind_apply, h]

@[simp] theorem ignoring_apply (session : Session Unit) (volume : Volume) :
    ignoring session volume = (.ok (), (session volume).2) := rfl

/-! ### Calls that are not refused -/

variable {disk : Disk} {path : String} {later : List (Option Cause)}

theorem call_spared (act : Disk → Except Failure (α × Disk)) (disk : Disk)
    (later : List (Option Cause)) : call act ⟨disk, none :: later⟩ = match act disk with
      | .ok (answer, after) => (.ok answer, ⟨after, later⟩)
      | .error failure => (.error failure, ⟨disk, later⟩) := by
  simp only [call]
  cases act disk <;> rfl

theorem ask_spared (question : Disk → Except Failure α) (disk : Disk)
    (later : List (Option Cause)) :
    ask question ⟨disk, none :: later⟩ = (question disk, ⟨disk, later⟩) := by
  rw [ask, call_spared]
  cases question disk <;> rfl

theorem isThere_spared (path : String) (disk : Disk) (later : List (Option Cause)) :
    isThere path ⟨disk, none :: later⟩ = (.ok (disk.isThere path), ⟨disk, later⟩) := by
  rw [isThere, bind_apply, attempt_apply, ask_spared, Disk.isThere]
  cases disk.status path <;> rfl

theorem rename_spared {source target : String} {after : Disk}
    (h : disk.rename source target = .ok after) (later : List (Option Cause)) :
    rename source target ⟨disk, none :: later⟩ = (.ok (), ⟨after, later⟩) := by
  rw [rename, change, call_spared, h]
  rfl

theorem readText_spared (path : String) (disk : Disk) (later : List (Option Cause)) :
    ∃ result, readText path ⟨disk, none :: later⟩ = (result, ⟨disk, later⟩) ∧
      result.toOption = (disk.read path).toOption.bind Text.decode? := by
  rw [readText, bind_apply, read, ask_spared]
  cases disk.read path with
  | error failure => exact ⟨_, rfl, rfl⟩
  | ok content =>
    simp only [Except.toOption, Option.bind_some]
    cases Text.decode? content with
    | none => exact ⟨_, rfl, rfl⟩
    | some text => exact ⟨_, rfl, rfl⟩

/-! ### Whichever calls are refused -/

/-- Whichever calls are refused, the session ends with an answer and a disk of which `good` holds,
or it fails and leaves a disk of which `bad` holds. -/
def Ensures (session : Session α) (disk : Disk) (good : α → Disk → Prop) (bad : Disk → Prop) :
    Prop :=
  ∀ refusals, match session ⟨disk, refusals⟩ with
    | (.ok answer, later) => good answer later.disk
    | (.error _, later) => bad later.disk

namespace Ensures

variable {session : Session α} {good good' : α → Disk → Prop} {bad bad' : Disk → Prop}

theorem mono (ensures : Ensures session disk good bad)
    (onGood : ∀ answer disk, good answer disk → good' answer disk)
    (onBad : ∀ disk, bad disk → bad' disk) : Ensures session disk good' bad' := by
  intro refusals
  have h := ensures refusals
  split at h
  · exact onGood _ _ h
  · exact onBad _ h

/-- A session that ensures that it does not fail has an answer. -/
theorem apply (volume : Volume) (ensures : Ensures session volume.disk good fun _ => False) :
    ∃ answer later, session volume = (.ok answer, later) ∧ good answer later.disk := by
  have h := ensures volume.refusals
  cases ran : session volume with
  | mk result later =>
    rw [ran] at h
    cases result with
    | ok answer => exact ⟨answer, later, rfl, h⟩
    | error failure => exact h.elim

/-- What is ensured of an answer holds of the one that is given. -/
theorem of_ok {volume later : Volume} {answer : α} (ensures : Ensures session volume.disk good bad)
    (ran : session volume = (.ok answer, later)) : good answer later.disk := by
  have h := ensures volume.refusals
  rw [ran] at h
  exact h

/-- What holds whatever happens. -/
theorem always (onGood : ∀ answer disk, good answer disk) (onBad : ∀ disk, bad disk) :
    Ensures session disk good bad := by
  intro refusals
  split
  · exact onGood _ _
  · exact onBad _

theorem pure {answer : α} (h : good answer disk) :
    Ensures (Pure.pure answer) disk good bad :=
  fun _ => h

theorem throw {failure : Failure} (h : bad disk) :
    Ensures (α := α) (MonadExcept.throw failure) disk good bad :=
  fun _ => h

/-- What a sequence ensures: the first part ensures what the rest needs. -/
theorem bind {next : α → Session β} {result : β → Disk → Prop}
    (ensures : Ensures session disk
      (fun answer disk => Ensures (next answer) disk result bad) bad) :
    Ensures (session >>= next) disk result bad := by
  intro refusals
  rw [bind_apply]
  have h := ensures refusals
  cases ran : session ⟨disk, refusals⟩ with
  | mk outcome later =>
    rw [ran] at h
    cases outcome with
    | ok answer => exact h later.refusals
    | error failure => exact h

/-- A failure that is attended to is an answer. -/
theorem attempt {result : Except Failure α → Disk → Prop}
    (ensures : Ensures session disk (fun answer disk => result (.ok answer) disk)
      fun disk => ∀ failure, result (.error failure) disk) :
    Ensures (Session.attempt session) disk result bad := by
  intro refusals
  rw [attempt_apply]
  have h := ensures refusals
  cases ran : session ⟨disk, refusals⟩ with
  | mk outcome later =>
    rw [ran] at h
    cases outcome with
    | ok answer => exact h
    | error failure => exact h failure

theorem ignoring {session : Session Unit} {result : Unit → Disk → Prop}
    (ensures : Ensures session disk result (result ())) :
    Ensures (Session.ignoring session) disk result bad :=
  bind (attempt (ensures.mono (fun _ _ h => pure h) fun _ h _ => pure h))

/-- A call does what it says or nothing. -/
theorem call {act : Disk → Except Failure (α × Disk)}
    (done : ∀ answer after, act disk = .ok (answer, after) → good answer after)
    (undone : bad disk) : Ensures (Session.call act) disk good bad := by
  intro refusals
  simp only [Session.call]
  split
  · next answer later h =>
    split at h
    · cases h
    · split at h
      · next acted =>
        cases h
        exact done _ _ acted
      · cases h
  · next failure later h =>
    split at h
    · cases h
      exact undone
    · split at h
      · cases h
      · cases h
        exact undone

theorem ask {question : Disk → Except Failure α}
    (answered : ∀ answer, question disk = .ok answer → good answer disk)
    (undone : bad disk) : Ensures (Session.ask question) disk good bad := by
  refine call ?_ undone
  intro answer after h
  cases asked : question disk with
  | error failure =>
    rw [asked] at h
    cases h
  | ok own =>
    rw [asked] at h
    cases h
    exact answered _ asked

theorem change {act : Disk → Except Failure Disk} {good : Unit → Disk → Prop}
    (done : ∀ after, act disk = .ok after → good () after) (undone : bad disk) :
    Ensures (Session.change act) disk good bad := by
  refine call ?_ undone
  intro answer after h
  cases acted : act disk with
  | error failure =>
    rw [acted] at h
    cases h
  | ok own =>
    rw [acted] at h
    cases h
    exact done _ acted

/-- Questions change nothing. -/
theorem isThere {path : String} {result : Bool → Disk → Prop}
    (found : disk.isThere path = true → result true disk) (missing : result false disk) :
    Ensures (Session.isThere path) disk result bad := by
  refine bind (attempt (ask ?_ fun _ => pure missing))
  intro node status
  refine pure (found ?_)
  rw [Disk.isThere, status]
  rfl

theorem isDirectory {path : String} {result : Bool → Disk → Prop}
    (either : ∀ answer, result answer disk) :
    Ensures (Session.isDirectory path) disk result bad := by
  refine bind (attempt (ask ?_ fun _ => pure (either false)))
  intro node status
  cases node with
  | directory => exact pure (either true)
  | _ => exact pure (either false)

end Ensures

/-! ### Refusals that are left -/

/-- Of the refusals a session leaves those that are still to come. -/
def Consumes (session : Session α) : Prop :=
  ∀ volume, (session volume).2.refusals <:+ volume.refusals

namespace Consumes

variable {session : Session α}

theorem pure (answer : α) : Consumes (Pure.pure answer) :=
  fun _ => List.suffix_rfl

theorem throw (failure : Failure) : Consumes (α := α) (MonadExcept.throw failure) :=
  fun _ => List.suffix_rfl

theorem bind {next : α → Session β} (consumes : Consumes session)
    (rest : ∀ answer, Consumes (next answer)) : Consumes (session >>= next) := by
  intro volume
  rw [bind_apply]
  have first := consumes volume
  cases ran : session volume with
  | mk outcome later =>
    rw [ran] at first
    cases outcome with
    | ok answer => exact (rest answer later).trans first
    | error failure => exact first

theorem attempt (consumes : Consumes session) : Consumes (Session.attempt session) :=
  consumes

theorem ignoring {session : Session Unit} (consumes : Consumes session) :
    Consumes (Session.ignoring session) :=
  consumes

theorem call (act : Disk → Except Failure (α × Disk)) : Consumes (Session.call act) := by
  rintro ⟨disk, refusals⟩
  have spent : (match act disk with
      | .ok (answer, after) => ((.ok answer, ⟨after, refusals.tail⟩) : Except Failure α × Volume)
      | .error failure => (.error failure, ⟨disk, refusals.tail⟩)).2.refusals <:+ refusals := by
    cases act disk <;> exact List.tail_suffix _
  cases refusals with
  | nil => exact spent
  | cons refusal later =>
    cases refusal with
    | none => exact spent
    | some cause => exact List.suffix_cons _ _

theorem ask (question : Disk → Except Failure α) : Consumes (Session.ask question) :=
  call _

theorem change (act : Disk → Except Failure Disk) : Consumes (Session.change act) :=
  call _

theorem isThere (path : String) : Consumes (Session.isThere path) :=
  .bind (.attempt (.ask _)) fun result => by cases result <;> exact .pure _

end Consumes

/-! ### Whether calls are refused -/

/-- Some of the coming calls are refused. -/
def Refusing (refusals : List (Option Cause)) : Prop :=
  ∃ cause, some cause ∈ refusals

/-- What a session ensures where calls are refused only if `refused` holds: a call that fails
without it is one that cannot be done. -/
def EnsuresUnder (refused : Prop) (session : Session α) (disk : Disk) (good : α → Disk → Prop)
    (bad : Disk → Prop) : Prop :=
  ∀ refusals, (Refusing refusals → refused) →
    (Refusing (session ⟨disk, refusals⟩).2.refusals → refused) ∧
      match session ⟨disk, refusals⟩ with
      | (.ok answer, later) => good answer later.disk
      | (.error _, later) => bad later.disk

namespace EnsuresUnder

variable {refused : Prop} {session : Session α} {good good' : α → Disk → Prop}
  {bad bad' : Disk → Prop}

theorem of_ensures (consumes : Consumes session) (ensures : Ensures session disk good bad) :
    EnsuresUnder refused session disk good bad := by
  intro refusals only
  refine ⟨?_, ensures refusals⟩
  rintro ⟨cause, member⟩
  exact only ⟨cause, (consumes ⟨disk, refusals⟩).mem member⟩

/-- What is ensured whatever is said of refusals is ensured whichever calls are refused. -/
theorem ensures (ensures : EnsuresUnder True session disk good bad) :
    Ensures session disk good bad :=
  fun refusals => (ensures refusals fun _ => trivial).2

theorem mono (ensures : EnsuresUnder refused session disk good bad)
    (onGood : ∀ answer disk, good answer disk → good' answer disk)
    (onBad : ∀ disk, bad disk → bad' disk) : EnsuresUnder refused session disk good' bad' := by
  intro refusals only
  obtain ⟨rest, h⟩ := ensures refusals only
  refine ⟨rest, ?_⟩
  split at h
  · exact onGood _ _ h
  · exact onBad _ h

theorem pure {answer : α} (h : good answer disk) :
    EnsuresUnder refused (Pure.pure answer) disk good bad :=
  fun _ only => ⟨only, h⟩

theorem throw {failure : Failure} (h : bad disk) :
    EnsuresUnder (α := α) refused (MonadExcept.throw failure) disk good bad :=
  fun _ only => ⟨only, h⟩

theorem bind {next : α → Session β} {result : β → Disk → Prop}
    (ensures : EnsuresUnder refused session disk
      (fun answer disk => EnsuresUnder refused (next answer) disk result bad) bad) :
    EnsuresUnder refused (session >>= next) disk result bad := by
  intro refusals only
  rw [bind_apply]
  obtain ⟨rest, h⟩ := ensures refusals only
  cases ran : session ⟨disk, refusals⟩ with
  | mk outcome later =>
    rw [ran] at rest h
    cases outcome with
    | ok answer => exact h later.refusals rest
    | error failure => exact ⟨rest, h⟩

theorem attempt {result : Except Failure α → Disk → Prop}
    (ensures : EnsuresUnder refused session disk (fun answer disk => result (.ok answer) disk)
      fun disk => ∀ failure, result (.error failure) disk) :
    EnsuresUnder refused (Session.attempt session) disk result bad := by
  intro refusals only
  rw [attempt_apply]
  obtain ⟨rest, h⟩ := ensures refusals only
  refine ⟨rest, ?_⟩
  cases ran : session ⟨disk, refusals⟩ with
  | mk outcome later =>
    rw [ran] at h
    cases outcome with
    | ok answer => exact h
    | error failure => exact h failure

theorem ignoring {session : Session Unit} {result : Unit → Disk → Prop}
    (ensures : EnsuresUnder refused session disk result (result ())) :
    EnsuresUnder refused (Session.ignoring session) disk result bad :=
  bind (attempt (ensures.mono (fun _ _ h => pure h) fun _ h _ => pure h))

/-- A call does what it says, or it is refused, or it cannot be done. -/
theorem change {act : Disk → Except Failure Disk} {good : Unit → Disk → Prop}
    (done : ∀ after, act disk = .ok after → good () after)
    (undone : (refused ∨ ∃ failure, act disk = .error failure) → bad disk) :
    EnsuresUnder refused (Session.change act) disk good bad := by
  intro refusals only
  have rest : Refusing (Session.change act ⟨disk, refusals⟩).2.refusals → refused := by
    rintro ⟨cause, member⟩
    exact only ⟨cause, (Consumes.change act ⟨disk, refusals⟩).mem member⟩
  refine ⟨rest, ?_⟩
  simp only [Session.change, Session.call]
  split
  · next answer later h =>
    split at h
    · cases h
    cases acted : act disk with
    | error failure =>
      rw [acted] at h
      cases h
    | ok own =>
      rw [acted] at h
      cases h
      exact done own acted
  · next failure later h =>
    split at h
    · next cause more =>
      cases h
      exact undone (Or.inl (only ⟨cause, List.mem_cons_self⟩))
    cases acted : act disk with
    | error failure =>
      rw [acted] at h
      cases h
      exact undone (Or.inr ⟨failure, acted⟩)
    | ok own =>
      rw [acted] at h
      cases h

theorem isThere {path : String} {result : Bool → Disk → Prop}
    (found : disk.isThere path = true → result true disk) (missing : result false disk) :
    EnsuresUnder refused (Session.isThere path) disk result bad :=
  of_ensures (.isThere path) (.isThere found missing)

end EnsuresUnder

end StyleMonitor.Session
