import StyleMonitor.Proofs.Diagnostics.History

/-!
# Calls of a store that overlap

A store is called from several tasks at a time. A call goes in steps, and steps of other calls may
come between them: an update first looks whether the store was disposed of and takes the lock
afterwards; a disposal first marks the store and takes the lock afterwards, to wipe it. A call that
nothing comes between serves its request as a whole. So an update that has found the store open can
place its findings after a disposal has returned, and what a store shows from then on is exactly
what such late updates have placed and nothing has taken away since.
-/

namespace StyleMonitor.Diagnostics

variable {path : String} {items : List Diagnostic} {findings : List Finding} {store : Diagnostics}
  {id : Nat} {request : Request}

/-! ### Steps of calls -/

/-- The store after an update that has the lock. That the store was disposed of meanwhile makes no
difference to it. -/
def place (store : Diagnostics) (path : String) (findings : List Finding) : Diagnostics :=
  { ({ store with disposed := false }.update path findings) with disposed := store.disposed }

theorem place_accepting (store : Diagnostics) (path : String) (findings : List Finding) :
    { store.place path findings with disposed := false } =
      { store with disposed := false }.update path findings := by
  simp only [place, update]
  split
  · contradiction
  split <;> rfl

/-- The store when its disposal has begun and has not taken the lock. -/
def mark (store : Diagnostics) : Diagnostics :=
  { store with disposed := true }

/-- Where a call stands. -/
inductive Call where
  /-- It has made no step. -/
  | begun (request : Request)
  /-- An update has found the store open, and waits for the lock. -/
  | admitted (path : String) (findings : List Finding)
  /-- A disposal has marked the store, and waits for the lock. -/
  | marked
  | returned (request : Request)
  deriving DecidableEq, Repr

/-- Whether a call is an update that waits for the lock. -/
def Call.isAdmitted : Call → Bool
  | admitted _ _ => true
  | _ => false

/-- What a step of a call did. -/
inductive Deed where
  | refused
  | admitted
  | placed (path : String) (findings : List Finding)
  | cleared (root : String)
  | emptied
  | marked
  | wiped
  deriving DecidableEq, Repr

/-- A call after its next step, what the step did, and the store after it. -/
def Call.step (store : Diagnostics) : Call → Option (Call × Deed × Diagnostics)
  | begun (.update path findings) =>
    if store.disposed then some (returned (.update path findings), .refused, store)
    else some (admitted path findings, .admitted, store)
  | begun (.clearTarget root) =>
    some (returned (.clearTarget root), .cleared root, store.clearTarget root)
  | begun .clearAll => some (returned .clearAll, .emptied, store.clearAll)
  | begun .dispose => some (marked, .marked, store.mark)
  | admitted path findings =>
    some (returned (.update path findings), .placed path findings, store.place path findings)
  | marked => some (returned .dispose, .wiped, store.clearAll)
  | returned _ => none

/-- What a step of a call can be. -/
inductive Call.Advance (store : Diagnostics) : Call → Call → Deed → Diagnostics → Prop where
  | refuse {path : String} {findings : List Finding} (disposed : store.disposed = true) :
    Advance store (.begun (.update path findings)) (.returned (.update path findings)) .refused store
  | accept {path : String} {findings : List Finding} (accepts : store.disposed = false) :
    Advance store (.begun (.update path findings)) (.admitted path findings) .admitted store
  | place {path : String} {findings : List Finding} :
    Advance store (.admitted path findings) (.returned (.update path findings))
      (.placed path findings) (store.place path findings)
  | clear {root : String} :
    Advance store (.begun (.clearTarget root)) (.returned (.clearTarget root)) (.cleared root)
      (store.clearTarget root)
  | empty : Advance store (.begun .clearAll) (.returned .clearAll) .emptied store.clearAll
  | mark : Advance store (.begun .dispose) .marked .marked store.mark
  | wipe : Advance store .marked (.returned .dispose) .wiped store.clearAll

theorem Call.advance_of_step {call later : Call} {deed : Deed} {next : Diagnostics}
    (steps : call.step store = some (later, deed, next)) :
    Call.Advance store call later deed next := by
  cases call with
  | begun request =>
    cases request with
    | update path findings =>
      rw [Call.step] at steps
      split at steps
      · next disposed =>
        cases steps
        exact .refuse disposed
      · next accepts =>
        cases steps
        exact .accept (by simpa using accepts)
    | clearTarget root =>
      cases steps
      exact .clear
    | clearAll =>
      cases steps
      exact .empty
    | dispose =>
      cases steps
      exact .mark
  | admitted path findings =>
    cases steps
    exact .place
  | marked =>
    cases steps
    exact .wipe
  | returned request => cases steps

/-- A store with its calls, which have the numbers 0, 1, ... in the order in which they began, and
with what they did in turn. -/
structure Overlap where
  store : Diagnostics := {}
  calls : List Call := []
  log : List (Nat × Deed) := []
  deriving DecidableEq, Repr

namespace Overlap

/-- What happens: a call begins, or one makes its next step. -/
inductive Event where
  | begin (request : Request)
  | step (id : Nat)
  deriving DecidableEq, Repr

variable {state middle next : Overlap} {event : Event} {events : List Event}

/-- The state after an event, if that can happen. -/
def step (state : Overlap) : Event → Option Overlap
  | .begin request => some { state with calls := state.calls ++ [.begun request] }
  | .step id => do
    let call ← state.calls[id]?
    let (call, deed, store) ← call.step state.store
    return ⟨store, state.calls.set id call, state.log ++ [(id, deed)]⟩

/-- The state after a row of events, if they can happen one after the other. -/
def run (state : Overlap) (events : List Event) : Option Overlap :=
  events.foldlM step state

theorem run_snoc : run state (events ++ [event]) = (run state events).bind (step · event) := by
  simp [run, List.foldlM_append]

theorem exists_of_run_snoc (ran : run state (events ++ [event]) = some next) :
    ∃ middle, run state events = some middle ∧ step middle event = some next := by
  rw [run_snoc] at ran
  exact Option.bind_eq_some_iff.mp ran

/-- What is kept by every event is kept by every row of events. -/
theorem run_induction {holds : Overlap → Prop} (start : holds state)
    (kept : ∀ {middle event next}, holds middle → step middle event = some next → holds next)
    (ran : run state events = some next) : holds next := by
  induction events using List.reverseRecOn generalizing next with
  | nil =>
    cases ran
    exact start
  | append_singleton earlier last ih =>
    obtain ⟨middle, before, happens⟩ := exists_of_run_snoc ran
    exact kept (ih before) happens

theorem exists_of_step (happens : step state (.step id) = some next) :
    ∃ call later deed store, state.calls[id]? = some call ∧
      Call.Advance state.store call later deed store ∧
      next = ⟨store, state.calls.set id later, state.log ++ [(id, deed)]⟩ := by
  simp only [step, Option.bind_eq_bind, Option.bind_eq_some_iff] at happens
  obtain ⟨call, found, ⟨later, deed, store⟩, steps, same⟩ := happens
  exact ⟨call, later, deed, store, found, Call.advance_of_step steps, (Option.some.inj same).symm⟩

/-- A call that nothing comes between serves its request. -/
theorem run_undisturbed (state : Overlap) (request : Request) : ∃ count log,
    run state (.begin request :: List.replicate count (.step state.calls.length)) =
      some ⟨request.serve state.store, state.calls ++ [.returned request], log⟩ := by
  cases request with
  | update path findings =>
    cases disposed : state.store.disposed with
    | true =>
      refine ⟨1, state.log ++ [(state.calls.length, .refused)], ?_⟩
      simp [run, step, Call.step, disposed, Request.serve, update]
    | false =>
      refine ⟨2, state.log ++ [(state.calls.length, .admitted)] ++
        [(state.calls.length, .placed path findings)], ?_⟩
      obtain ⟨⟨files, flag⟩, calls, log⟩ := state
      cases disposed
      simp [run, step, Call.step, Request.serve, place, update]
      split <;> rfl
  | clearTarget root =>
    refine ⟨1, state.log ++ [(state.calls.length, .cleared root)], ?_⟩
    simp [run, step, Call.step, Request.serve]
  | clearAll =>
    refine ⟨1, state.log ++ [(state.calls.length, .emptied)], ?_⟩
    simp [run, step, Call.step, Request.serve]
  | dispose =>
    refine ⟨2, state.log ++ [(state.calls.length, .marked)] ++ [(state.calls.length, .wiped)], ?_⟩
    simp [run, step, Call.step, Request.serve, mark, clearAll, dispose]

end Overlap

/-- What a step asked for that had the lock. The store is wiped as it is on request. -/
def Deed.request? : Deed → Option Request
  | placed path findings => some (.update path findings)
  | cleared root => some (.clearTarget root)
  | emptied => some .clearAll
  | wiped => some .clearAll
  | refused => none
  | admitted => none
  | marked => none

namespace Overlap

variable {state middle next : Overlap} {event : Event} {events : List Event}
  {log more : List (Nat × Deed)}

/-! ### What the log tells -/

/-- What was asked for with the lock, in turn. -/
def requests (log : List (Nat × Deed)) : List Request :=
  log.filterMap fun entry => entry.2.request?

theorem dispose_not_mem_requests (log : List (Nat × Deed)) : .dispose ∉ requests log := by
  intro member
  obtain ⟨⟨id, deed⟩, -, asks⟩ := List.mem_filterMap.mp member
  cases deed <;> cases asks

/-- An update found the store open before any disposal had marked it. -/
def InTime (log : List (Nat × Deed)) (id : Nat) : Prop :=
  ∃ before between, log = before ++ (id, .admitted) :: between ∧
    ∀ other, (other, .marked) ∉ before

theorem InTime.append (inTime : InTime log id) (more : List (Nat × Deed)) :
    InTime (log ++ more) id := by
  obtain ⟨before, between, rfl, unmarked⟩ := inTime
  exact ⟨before, between ++ more, by simp, unmarked⟩

/-- What holds of a store and its calls at any time. -/
structure Regular (state : Overlap) : Prop where
  disposed : state.store.disposed = true ↔ ∃ id, (id, .marked) ∈ state.log
  admitted : ∀ id path findings, state.calls[id]? = some (.admitted path findings) →
    InTime state.log id
  placed : ∀ earlier id path findings later,
    state.log = earlier ++ (id, .placed path findings) :: later → InTime earlier id
  wiped : ∀ id, state.calls[id]? = some (.returned .dispose) → (id, .wiped) ∈ state.log
  /-- The store shows what was asked for with the lock, as if it were open still. -/
  shown : after (requests state.log) = { state.store with disposed := false }

theorem regular_empty : Regular {} where
  disposed := by simp
  admitted id path findings found := by simp at found
  placed earlier id path findings later split := by simp at split
  wiped id found := by simp at found
  shown := rfl

theorem Regular.begin (regular : state.Regular) (request : Request) :
    Regular { state with calls := state.calls ++ [.begun request] } where
  disposed := regular.disposed
  admitted id path findings found := by
    rw [List.getElem?_append] at found
    split at found
    · exact regular.admitted id path findings found
    · simp [List.getElem?_singleton] at found
  placed := regular.placed
  wiped id found := by
    rw [List.getElem?_append] at found
    split at found
    · exact regular.wiped id found
    · simp [List.getElem?_singleton] at found
  shown := regular.shown

variable {call later : Call} {deed : Deed}

theorem disposed_of_advance (advance : Call.Advance state.store call later deed store)
    (regular : state.Regular) :
    store.disposed = true ↔ ∃ other, (other, .marked) ∈ state.log ++ [(id, deed)] := by
  have before := regular.disposed
  cases advance <;> simp_all [place, clearTarget, clearAll, mark]

theorem shown_of_advance (advance : Call.Advance state.store call later deed store)
    (regular : state.Regular) :
    after (requests (state.log ++ [(id, deed)])) = { store with disposed := false } := by
  have before := regular.shown
  have asked : requests (state.log ++ [(id, deed)]) =
      requests state.log ++ deed.request?.toList := by
    cases request : deed.request? <;> simp [requests, request]
  rw [asked]
  cases advance with
  | refuse | accept | mark => simpa [Deed.request?, Diagnostics.mark] using before
  | clear | empty | wipe =>
    simp [Deed.request?, after_snoc, before, Request.serve, clearTarget, clearAll]
  | place =>
    simp only [Deed.request?, Option.toList_some, after_snoc, before, Request.serve]
    exact (place_accepting state.store _ _).symm

theorem call_of_set {calls : List Call} {other : Nat} {now : Call}
    (found : (calls.set id later)[other]? = some now) :
    other = id ∧ now = later ∨ calls[other]? = some now := by
  rw [List.getElem?_set] at found
  split at found
  · next own =>
    split at found
    · exact Or.inl ⟨own.symm, (Option.some.inj found).symm⟩
    · cases found
  · exact Or.inr found

theorem Regular.step (regular : state.Regular)
    (happens : state.step event = some next) : next.Regular := by
  cases event with
  | begin request =>
    cases happens
    exact regular.begin request
  | step id =>
    obtain ⟨call, later, deed, store, found, advance, rfl⟩ := exists_of_step happens
    refine ⟨disposed_of_advance advance regular, ?_, ?_, ?_, shown_of_advance advance regular⟩
    · intro other path findings admitted
      obtain ⟨rfl, rfl⟩ | before := call_of_set admitted
      · cases advance with
        | accept accepts =>
          refine ⟨state.log, [], rfl, fun disposal marked => ?_⟩
          have disposed := regular.disposed.mpr ⟨disposal, marked⟩
          rw [accepts] at disposed
          cases disposed
      · exact (regular.admitted other path findings before).append _
    · intro earlier other path findings rest split
      rcases List.eq_nil_or_concat' rest with rfl | ⟨rest, last, rfl⟩
      · obtain ⟨rfl, last⟩ := List.append_inj' split rfl
        cases last
        cases advance with
        | place => exact regular.admitted id path findings found
      · rw [← List.cons_append, ← List.append_assoc] at split
        obtain ⟨split, -⟩ := List.append_inj' split rfl
        exact regular.placed earlier other path findings rest split
    · intro other returned
      obtain ⟨rfl, rfl⟩ | before := call_of_set returned
      · cases advance with
        | wipe => exact List.mem_append_right _ (List.mem_singleton_self _)
      · exact List.mem_append_left _ (regular.wiped other before)

theorem regular_of_run (ran : run {} events = some state) : state.Regular :=
  run_induction regular_empty (fun regular happens => regular.step happens) ran

/-! ### Late updates -/

/-- What stands of the requests that had the lock was placed by an update, and nothing has taken it
away since. -/
theorem standing_requests : Standing (requests log) path findings ↔
    ∃ earlier id spelling later, log = earlier ++ (id, .placed spelling findings) :: later ∧
      Path.components spelling = Path.components path ∧ findings ≠ [] ∧
      ∀ entry ∈ later, ∀ request ∈ entry.2.request?, ¬ request.Settles path := by
  constructor
  · rintro ⟨_, spelling, _, split, same, some, -, quiet⟩
    obtain ⟨earlier, rest, rfl, rfl, asked⟩ := List.filterMap_eq_append_iff.mp split
    obtain ⟨idle, ⟨id, deed⟩, later, rfl, unasked, places, rfl⟩ :=
      List.filterMap_eq_cons_iff.mp asked
    cases deed <;> cases places
    refine ⟨earlier ++ idle, id, spelling, later, by simp, same, some, ?_⟩
    intro entry member request asks
    exact quiet request (List.mem_filterMap.mpr ⟨entry, member, asks⟩)
  · rintro ⟨earlier, id, spelling, later, rfl, same, some, quiet⟩
    refine ⟨requests earlier, spelling, requests later, by simp [requests, Deed.request?], same,
      some, dispose_not_mem_requests earlier, ?_⟩
    intro request member
    obtain ⟨entry, listed, asks⟩ := List.mem_filterMap.mp member
    exact quiet entry listed request asks

/-- An update that found the store open before any disposal had marked it has placed these findings
after every disposal that has returned had wiped it, and nothing has taken them away since. -/
def Late (state : Overlap) (path : String) (findings : List Finding) : Prop :=
  ∃ earlier id spelling later, state.log = earlier ++ (id, .placed spelling findings) :: later ∧
    InTime earlier id ∧
    (∀ disposal, state.calls[disposal]? = some (.returned .dispose) →
      (disposal, .wiped) ∈ earlier) ∧
    Path.components spelling = Path.components path ∧ findings ≠ [] ∧
    ∀ entry ∈ later, ∀ request ∈ entry.2.request?, ¬ request.Settles path

theorem Regular.late_iff (regular : state.Regular) :
    state.Late path findings ↔ Standing (requests state.log) path findings := by
  rw [standing_requests]
  constructor
  · rintro ⟨earlier, id, spelling, later, split, -, -, rest⟩
    exact ⟨earlier, id, spelling, later, split, rest⟩
  · rintro ⟨earlier, id, spelling, later, split, same, some, quiet⟩
    refine ⟨earlier, id, spelling, later, split, regular.placed _ _ _ _ _ split, ?_, same, some,
      quiet⟩
    intro disposal returned
    have wiped := regular.wiped disposal returned
    rw [split, List.mem_append, List.mem_cons] at wiped
    rcases wiped with earlier | placed | later
    · exact earlier
    · cases placed
    · exact absurd trivial (quiet _ later .clearAll rfl)

/-- A path is shown what was placed late for it. -/
theorem Regular.get?_eq_some_iff (regular : state.Regular) :
    state.store.get? path = some items ↔
      ∃ findings, state.Late path findings ∧ items = findings.map Diagnostic.ofFinding := by
  simp only [regular.late_iff, ← get?_after, regular.shown]
  rfl

theorem exists_get?_of_files (filled : store.files ≠ []) :
    ∃ path items, store.get? path = some items := by
  obtain ⟨⟨key, items⟩, rest, files⟩ := List.exists_cons_of_ne_nil filled
  exact ⟨key, items, by simp [get?, files]⟩

theorem Regular.isEmpty_iff (regular : state.Regular) :
    state.store.isEmpty = true ↔ ∀ path findings, ¬ state.Late path findings := by
  rw [isEmpty, List.isEmpty_iff]
  constructor
  · intro bare path findings late
    have shown := regular.get?_eq_some_iff.mpr ⟨findings, late, rfl⟩
    simp [get?, bare] at shown
  · intro none
    by_contra filled
    obtain ⟨path, items, shown⟩ := exists_get?_of_files filled
    obtain ⟨findings, late, -⟩ := regular.get?_eq_some_iff.mp shown
    exact none path findings late

/-! ### After a disposal -/

theorem length_setPath_le (path : String) (list : List Diagnostic)
    (files : List (String × List Diagnostic)) :
    (setPath path list files).length ≤ files.length + 1 := by
  induction files with
  | nil => simp [setPath]
  | cons entry files ih =>
    rw [setPath]
    split
    · simp
    · simp only [List.length_cons]
      omega

/-- An update adds one path at most. -/
theorem length_place_le (store : Diagnostics) (path : String) (findings : List Finding) :
    (store.place path findings).files.length ≤ store.files.length + 1 := by
  simp only [place, update]
  split
  · contradiction
  split
  · have fewer : (removePath path store.files).length ≤ store.files.length :=
      List.length_filter_le _ _
    dsimp only
    omega
  · exact length_setPath_le _ _ _

/-- How many updates wait for the lock. -/
def waiting (state : Overlap) : Nat :=
  state.calls.countP Call.isAdmitted

theorem waiting_set (later : Call) (found : state.calls[id]? = some call) :
    (state.calls.set id later).countP Call.isAdmitted + (if call.isAdmitted then 1 else 0) =
      state.waiting + (if later.isAdmitted then 1 else 0) := by
  obtain ⟨there, here⟩ := List.getElem?_eq_some_iff.mp found
  have counted : call.isAdmitted = true → 0 < state.waiting := by
    intro admitted
    exact List.countP_pos_iff.mpr ⟨call, List.mem_of_getElem? found, admitted⟩
  rw [List.countP_set there, here, waiting]
  split
  · next admitted =>
    have some := counted admitted
    rw [waiting] at some
    omega
  · omega

/-- A store stays disposed of. -/
theorem disposed_of_step (disposed : state.store.disposed = true)
    (happens : state.step event = some next) : next.store.disposed = true := by
  cases event with
  | begin request =>
    cases happens
    exact disposed
  | step id =>
    obtain ⟨call, later, deed, store, -, advance, rfl⟩ := exists_of_step happens
    cases advance with
    | refuse | accept | place | clear | empty | wipe => exact disposed
    | mark => rfl

/-- Of a store that was disposed of, a step adds a path only where it ends the wait of an update. -/
theorem room_of_advance (disposed : store.disposed = true) {after : Diagnostics}
    (advance : Call.Advance store call later deed after) :
    after.files.length + (if later.isAdmitted then 1 else 0) ≤
      store.files.length + (if call.isAdmitted then 1 else 0) := by
  cases advance with
  | refuse => exact Nat.le_refl _
  | accept accepts =>
    rw [disposed] at accepts
    cases accepts
  | place => exact length_place_le store _ _
  | clear => exact List.length_filter_le _ _
  | empty => exact Nat.zero_le _
  | mark => exact Nat.le_refl _
  | wipe => exact Nat.zero_le _

/-- The paths that are shown and the updates that wait, of a store that was disposed of. -/
def Within (bound : Nat) (state : Overlap) : Prop :=
  state.store.disposed = true ∧ state.store.files.length + state.waiting ≤ bound

theorem Within.step {bound : Nat} (within : Within bound state)
    (happens : state.step event = some next) : Within bound next := by
  obtain ⟨disposed, room⟩ := within
  refine ⟨disposed_of_step disposed happens, ?_⟩
  cases event with
  | begin request =>
    cases happens
    simpa [waiting, Call.isAdmitted] using room
  | step id =>
    obtain ⟨call, later, deed, store, found, advance, rfl⟩ := exists_of_step happens
    have count := waiting_set later found
    have files := room_of_advance disposed advance
    simp only [waiting] at count room ⊢
    omega

/-- A store that was disposed of, shows nothing, and has no update waiting that would add a path. -/
structure Spent (state : Overlap) : Prop where
  disposed : state.store.disposed = true
  bare : state.store.files = []
  idle : ∀ path findings, .admitted path findings ∈ state.calls → findings = []

theorem Spent.step (spent : state.Spent) (happens : state.step event = some next) :
    next.Spent := by
  have disposed := disposed_of_step spent.disposed happens
  cases event with
  | begin request =>
    cases happens
    refine ⟨disposed, spent.bare, fun path findings admitted => ?_⟩
    rcases List.mem_append.mp admitted with earlier | new
    · exact spent.idle path findings earlier
    · simp at new
  | step id =>
    obtain ⟨call, later, deed, store, found, advance, rfl⟩ := exists_of_step happens
    refine ⟨disposed, ?_, fun path findings admitted => ?_⟩
    · cases advance with
      | refuse | accept | mark => exact spent.bare
      | place =>
        have none := spent.idle _ _ (List.mem_of_getElem? found)
        simp [place, update, none, spent.bare, removePath]
      | clear => simp [clearTarget, spent.bare]
      | empty | wipe => rfl
    · rcases List.mem_or_eq_of_mem_set admitted with earlier | rfl
      · exact spent.idle path findings earlier
      · cases advance with
        | accept accepts =>
          rw [spent.disposed] at accepts
          cases accepts

/-- An update that waits can place its findings at once. -/
theorem exists_placed (waits : .admitted path findings ∈ state.calls) :
    ∃ id next, state.step (.step id) = some next ∧
      next.store = state.store.place path findings := by
  obtain ⟨id, found⟩ := List.mem_iff_getElem?.mp waits
  refine ⟨id, ⟨state.store.place path findings,
    state.calls.set id (.returned (.update path findings)),
    state.log ++ [(id, .placed path findings)]⟩, ?_, rfl⟩
  simp [Overlap.step, found, Call.step]

theorem place_files_ne_nil (some : findings ≠ []) :
    (store.place path findings).files ≠ [] := by
  have open' : ({ store with disposed := false } : Diagnostics).disposed = false := rfl
  have shown := get?_update open' some path path
  rw [if_pos (Path.same_refl path)] at shown
  intro none
  rw [← place_accepting] at shown
  simp [get?, none] at shown

/-- A store is marked as soon as a disposal waits for the lock. -/
def Shut (state : Overlap) : Prop :=
  ∀ call ∈ state.calls, call = .marked ∨ call = .returned .dispose → state.store.disposed = true

theorem Shut.step (shut : state.Shut) (happens : state.step event = some next) : next.Shut := by
  intro call member closes
  cases event with
  | begin request =>
    cases happens
    rcases List.mem_append.mp member with earlier | new
    · exact shut call earlier closes
    · simp_all
  | step id =>
    have stays (disposed : state.store.disposed = true) := disposed_of_step disposed happens
    obtain ⟨before, later, deed, store, found, advance, rfl⟩ := exists_of_step happens
    rcases List.mem_or_eq_of_mem_set member with earlier | rfl
    · exact stays (shut call earlier closes)
    · cases advance with
      | refuse | accept | place | clear | empty => simp at closes
      | mark => rfl
      | wipe => exact stays (shut .marked (List.mem_of_getElem? found) (Or.inl rfl))

/-- When a disposal has returned, what a store shows is what late updates have placed and nothing has
taken away since: updates that had found the store open before any disposal marked it, and took the
lock after all disposals that have returned. The store is empty exactly when there are none, and it
stays empty whatever happens exactly when none of the updates that still wait for the lock has
findings. No more paths come to be shown than updates wait. -/
theorem shown_after_dispose_iff_late (ran : run {} events = some state)
    (returned : .returned .dispose ∈ state.calls) :
    (∀ path items, state.store.get? path = some items ↔
      ∃ findings, state.Late path findings ∧ items = findings.map Diagnostic.ofFinding) ∧
    (state.store.isEmpty = true ↔ ∀ path findings, ¬ state.Late path findings) ∧
    ((∀ events next, run state events = some next → next.store.isEmpty = true) ↔
      state.store.isEmpty = true ∧
        ∀ path findings, .admitted path findings ∈ state.calls → findings = []) ∧
    ∀ events next, run state events = some next →
      next.store.files.length + next.waiting ≤ state.store.files.length + state.waiting := by
  have regular := regular_of_run ran
  have shut : Shut state :=
    run_induction (by simp [Shut]) (fun shut happens => shut.step happens) ran
  have disposed := shut _ returned (Or.inr rfl)
  refine ⟨fun path items => regular.get?_eq_some_iff, regular.isEmpty_iff, ?_, ?_⟩
  · simp only [isEmpty, List.isEmpty_iff]
    constructor
    · intro always
      refine ⟨always [] state rfl, fun path findings waits => ?_⟩
      by_contra some
      obtain ⟨id, next, happens, placed⟩ := exists_placed waits
      have bare := always [.step id] next (by simp [run, happens])
      rw [placed] at bare
      exact place_files_ne_nil some bare
    · rintro ⟨bare, idle⟩ events next ran
      have spent : Spent next :=
        run_induction ⟨disposed, bare, idle⟩ (fun spent happens => spent.step happens) ran
      exact spent.bare
  · intro events next ran
    have within : Within (state.store.files.length + state.waiting) next :=
      run_induction ⟨disposed, Nat.le_refl _⟩ (fun within happens => within.step happens) ran
    exact within.2

/-- An update finds the store open, a disposal comes and returns, and the update goes on. -/
def overtaken : List Event :=
  [.begin (.update "/w/a.c" [⟨0, .major, "C-F3", ""⟩]), .begin .dispose, .step 0, .step 1,
    .step 1, .step 0]

theorem shown_after_dispose_iff_late_overtaken : ∃ state, run {} overtaken = some state ∧
    .returned .dispose ∈ state.calls ∧
    (∃ findings, state.Late "/w/a.c" findings ∧
      [⟨0, .major, "C-F3", ""⟩].map Diagnostic.ofFinding = findings.map Diagnostic.ofFinding) ∧
    ∀ events next, run state events = some next → next.store.files.length ≤ 1 := by
  have came : (run {} overtaken).isSome = true := by decide +kernel
  obtain ⟨state, ran⟩ := Option.isSome_iff_exists.mp came
  have seen : (run {} overtaken).map (fun state =>
      (state.calls, state.store.get? "/w/a.c", state.store.files.length + state.waiting)) =
      some ([.returned (.update "/w/a.c" [⟨0, .major, "C-F3", ""⟩]), .returned .dispose],
        some ([⟨0, .major, "C-F3", ""⟩].map Diagnostic.ofFinding), 1) := by
    decide +kernel
  rw [ran] at seen
  obtain ⟨calls, seen⟩ := Prod.mk.inj (Option.some.inj seen)
  obtain ⟨shown, room⟩ := Prod.mk.inj seen
  have returned : .returned .dispose ∈ state.calls := by simp [calls]
  obtain ⟨shows, -, -, bounded⟩ := shown_after_dispose_iff_late ran returned
  refine ⟨state, ran, returned, (shows _ _).mp shown, fun events next onward => ?_⟩
  have most := bounded events next onward
  omega

/-- A store that was disposed of shows a finding. -/
theorem not_empty_overtaken : ∃ state, run {} overtaken = some state ∧
    .returned .dispose ∈ state.calls ∧ state.store.isEmpty = false :=
  ⟨_, rfl, by decide +kernel, by decide +kernel⟩

end Overlap

end StyleMonitor.Diagnostics
