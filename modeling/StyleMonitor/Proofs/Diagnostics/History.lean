import Mathlib.Algebra.BigOperators.Group.List.Basic
import Mathlib.Algebra.GroupWithZero.Nat
import Mathlib.Data.List.Pairwise
import StyleMonitor.Proofs.Diagnostics
import StyleMonitor.Proofs.Path.Order

/-!
# What a store shows after any requests

A path is shown what the last update of it asked for, unless a later request took that away or the
store was disposed of before. The snapshot of a store lists every path that is shown anything once,
in the order of paths, and all that is told of a store agrees with its snapshot.
-/

namespace StyleMonitor.Diagnostics

variable {store : Diagnostics} {path other root : String} {items : List Diagnostic}
  {findings : List Finding}

/-! ### Stores that hold each path once -/

/-- A store that holds each path once, under one spelling and with a list that is not empty. Once it
was disposed of it holds nothing. -/
structure Sound (store : Diagnostics) : Prop where
  apart : store.files.Pairwise fun first second => Path.same first.1 second.1 = false
  filled : ∀ entry ∈ store.files, entry.2 ≠ []
  bare : store.disposed = true → store.files = []

theorem sound_empty : Sound {} :=
  ⟨.nil, nofun, nofun⟩

theorem Sound.sublist (sound : store.Sound) {files : List (String × List Diagnostic)}
    (sub : files.Sublist store.files) : Sound { store with files := files } where
  apart := sound.apart.sublist sub
  filled entry member := sound.filled entry (sub.mem member)
  bare disposed := List.eq_nil_of_sublist_nil (sound.bare disposed ▸ sub)

theorem apart_setPath {files : List (String × List Diagnostic)}
    (apart : files.Pairwise fun first second => Path.same first.1 second.1 = false)
    (path : String) (list : List Diagnostic) :
    (setPath path list files).Pairwise fun first second =>
      Path.same first.1 second.1 = false := by
  induction files with
  | nil => exact List.pairwise_singleton _ _
  | cons first rest ih =>
    obtain ⟨key, old⟩ := first
    obtain ⟨differ, apart⟩ := List.pairwise_cons.mp apart
    rw [setPath]
    split
    · exact List.pairwise_cons.mpr ⟨differ, apart⟩
    · next new =>
      refine List.pairwise_cons.mpr ⟨fun entry member => ?_, ih apart⟩
      rcases mem_setPath member with there | ⟨-, named | ⟨older, listed⟩⟩
      · exact differ entry there
      · simpa [named] using new
      · exact differ (entry.1, older) listed

theorem Sound.update (sound : store.Sound) (path : String) (findings : List Finding) :
    (store.update path findings).Sound := by
  unfold Diagnostics.update
  split
  · exact sound
  split
  · exact sound.sublist List.filter_sublist
  · next takes some =>
    refine ⟨apart_setPath sound.apart path _, fun entry member => ?_, fun disposed =>
      absurd disposed takes⟩
    rcases mem_setPath member with there | ⟨set, -⟩
    · exact sound.filled entry there
    · simpa [set] using some

instance : Std.Symm fun first second : String × List Diagnostic =>
    Path.same first.1 second.1 = false where
  symm first second apart := (Path.same_comm second.1 first.1).trans apart

theorem Sound.perm (sound : store.Sound) {files : List (String × List Diagnostic)}
    (order : files.Perm store.files) : Sound { store with files := files } where
  apart := (order.pairwise_iff fun {first second} => Std.Symm.symm first second).mpr sound.apart
  filled entry member := sound.filled entry (order.mem_iff.mp member)
  bare disposed := List.perm_nil.mp (sound.bare disposed ▸ order)

/-- A path is shown the list that stands at it. -/
theorem Sound.get?_eq_some_iff (sound : store.Sound) :
    store.get? path = some items ↔
      ∃ key, (key, items) ∈ store.files ∧ Path.same key path = true := by
  constructor
  · intro shown
    obtain ⟨entry, found, rfl⟩ := Option.map_eq_some_iff.mp shown
    have same : Path.same entry.1 path = true := by simpa using List.find?_some found
    exact ⟨entry.1, List.mem_of_find?_eq_some found, same⟩
  · rintro ⟨key, member, same⟩
    cases found : store.files.find? fun entry => Path.same entry.1 path with
    | none => exact absurd same (List.find?_eq_none.mp found (key, items) member)
    | some entry =>
      have there := List.mem_of_find?_eq_some found
      have named : Path.same entry.1 path = true := by simpa using List.find?_some found
      have equal : entry = (key, items) := by
        by_contra differ
        have no := sound.apart.forall there member differ
        rw [Path.same_trans named (by rwa [Path.same_comm])] at no
        cases no
      rw [get?, found, equal]
      rfl

/-! ### What one request changes -/

/-- What is kept of a store by the components of its paths is shown as before, and nothing else. -/
theorem get?_filter (keep : String → Bool)
    (respects : ∀ first second, Path.same first second = true → keep first = keep second)
    (files : List (String × List Diagnostic)) (disposed : Bool) (path : String) :
    get? ⟨files.filter fun entry => keep entry.1, disposed⟩ path =
      if keep path then get? ⟨files, disposed⟩ path else none := by
  induction files with
  | nil => simp [get?]
  | cons entry files ih =>
    obtain ⟨key, list⟩ := entry
    rw [List.filter_cons, get?_cons]
    by_cases same : Path.same key path = true
    · by_cases kept : keep path = true
      · simp [respects key path same, kept, get?_cons, same]
      · simp [respects key path same, kept, ih]
    · by_cases kept : keep key = true
      · simp [kept, get?_cons, same, ih]
      · simp [kept, same, ih]

/-- An update without findings takes what is shown of the path away. -/
theorem get?_update_nil (takes : store.disposed = false) (path other : String) :
    (store.update path []).get? other =
      if Path.same path other then none else store.get? other := by
  have kept := get?_filter (fun key => !Path.same key path)
    (fun first second same => by rw [Path.same_congr_left same]) store.files store.disposed other
  rw [update, if_neg (by simp [takes]), if_pos rfl]
  refine kept.trans ?_
  rw [Path.same_comm other path]
  cases Path.same path other <;> rfl

/-- Clearing a root takes away what lies at or below it, component by component. -/
theorem get?_clearTarget (store : Diagnostics) (root path : String) :
    (store.clearTarget root).get? path =
      if Path.isWithin path root then none else store.get? path := by
  have kept := get?_filter (fun key => !Path.isWithin key root) (by
    intro first second same
    rw [Path.isWithin, Path.isWithin, Path.same_iff.mp same]) store.files store.disposed path
  refine kept.trans ?_
  cases Path.isWithin path root <;> rfl

/-- A request to a store. -/
inductive Request where
  | update (path : String) (findings : List Finding)
  | clearTarget (root : String)
  | clearAll
  | dispose
  deriving DecidableEq, Repr

namespace Request

/-- The store after a request. -/
def serve (store : Diagnostics) : Request → Diagnostics
  | update path findings => store.update path findings
  | clearTarget root => store.clearTarget root
  | clearAll => store.clearAll
  | dispose => store.dispose

/-- Whether what is shown of a path after a request is up to that request. -/
def Settles (path : String) : Request → Prop
  | update other _ => Path.components other = Path.components path
  | clearTarget root => Path.components root <+: Path.components path
  | clearAll => True
  | dispose => True

end Request

/-- The store after some requests. -/
def after (requests : List Request) : Diagnostics :=
  requests.foldl Request.serve {}

theorem after_snoc (requests : List Request) (last : Request) :
    after (requests ++ [last]) = last.serve (after requests) := by
  simp [after]

theorem Sound.serve (sound : store.Sound) (request : Request) : (request.serve store).Sound := by
  cases request with
  | update path findings => exact sound.update path findings
  | clearTarget root => exact sound.sublist List.filter_sublist
  | clearAll => exact sound.sublist (List.nil_sublist _)
  | dispose => exact ⟨.nil, nofun, fun _ => rfl⟩

theorem sound_after (requests : List Request) : (after requests).Sound := by
  induction requests using List.reverseRecOn with
  | nil => exact sound_empty
  | append_singleton earlier last ih =>
    rw [after_snoc]
    exact ih.serve last

theorem disposed_serve (store : Diagnostics) (request : Request) :
    (request.serve store).disposed = true ↔ store.disposed = true ∨ request = .dispose := by
  cases request with
  | update path findings =>
    simp only [Request.serve, update, reduceCtorEq, or_false]
    split
    · rfl
    split <;> rfl
  | clearTarget root => simp [Request.serve, clearTarget]
  | clearAll => simp [Request.serve, clearAll]
  | dispose => simp [Request.serve, dispose]

/-- A store takes updates until it was disposed of. -/
theorem disposed_after (requests : List Request) :
    (after requests).disposed = true ↔ .dispose ∈ requests := by
  induction requests using List.reverseRecOn with
  | nil => simp [after]
  | append_singleton earlier last ih =>
    rw [after_snoc, disposed_serve, ih, List.mem_append, List.mem_singleton, eq_comm (a := last)]

/-! ### What stands after some requests -/

/-- The findings that the last update of a path asked for, if there are any, the store was not
disposed of before, and no later request took them away. -/
def Standing (requests : List Request) (path : String) (findings : List Finding) : Prop :=
  ∃ earlier spelling later, requests = earlier ++ .update spelling findings :: later ∧
    Path.components spelling = Path.components path ∧ findings ≠ [] ∧ .dispose ∉ earlier ∧
    ∀ request ∈ later, ¬ request.Settles path

theorem Standing.not_disposed {requests : List Request}
    (standing : Standing requests path findings) : .dispose ∉ requests := by
  obtain ⟨earlier, spelling, later, rfl, -, -, before, quiet⟩ := standing
  intro member
  rcases List.mem_append.mp member with there | here
  · exact before there
  · rcases List.mem_cons.mp here with no | there
    · cases no
    · exact quiet _ there trivial

/-- What stands after one more request. -/
theorem standing_snoc {requests : List Request} {last : Request} :
    Standing (requests ++ [last]) path findings ↔
      (∃ spelling, last = .update spelling findings ∧
        Path.components spelling = Path.components path ∧ findings ≠ [] ∧ .dispose ∉ requests) ∨
      Standing requests path findings ∧ ¬ last.Settles path := by
  constructor
  · rintro ⟨earlier, spelling, later, equal, same, some, before, quiet⟩
    rcases List.eq_nil_or_concat' later with rfl | ⟨later, final, rfl⟩
    · obtain ⟨rfl, final⟩ := List.append_inj' equal rfl
      exact Or.inl ⟨spelling, (List.cons.inj final).1, same, some, before⟩
    · rw [← List.cons_append, ← List.append_assoc] at equal
      obtain ⟨rfl, final⟩ := List.append_inj' equal rfl
      obtain rfl := (List.cons.inj final).1
      exact Or.inr ⟨⟨earlier, spelling, later, rfl, same, some, before, fun request member =>
        quiet request (List.mem_append_left _ member)⟩, quiet last (by simp)⟩
  · rintro (⟨spelling, rfl, same, some, before⟩ |
      ⟨⟨earlier, spelling, later, rfl, same, some, before, quiet⟩, idle⟩)
    · exact ⟨requests, spelling, [], rfl, same, some, before, nofun⟩
    · refine ⟨earlier, spelling, later ++ [last], by simp, same, some, before, ?_⟩
      intro request member
      rcases List.mem_append.mp member with there | here
      · exact quiet request there
      · rwa [List.mem_singleton.mp here]

theorem get?_serve_update (sound : store.Sound) (path other : String) (findings : List Finding) :
    (Request.serve store (.update path findings)).get? other =
      if store.disposed then none
      else if Path.same path other then
        if findings = [] then none else some (findings.map Diagnostic.ofFinding)
      else store.get? other := by
  cases disposed : store.disposed with
  | true => simp [Request.serve, update, disposed, get?, sound.bare disposed]
  | false =>
    rw [Request.serve]
    by_cases none : findings = []
    · rw [none, get?_update_nil disposed]
      rfl
    · rw [get?_update disposed none]
      simp [none]

/-- An update of a path, while updates are taken, decides what stands for it. -/
theorem standing_update {requests : List Request} {spelling : String} {asked : List Finding}
    (takes : .dispose ∉ requests) (same : Path.components spelling = Path.components path) :
    Standing (requests ++ [.update spelling asked]) path findings ↔
      findings = asked ∧ asked ≠ [] := by
  rw [standing_snoc]
  constructor
  · rintro (⟨other, equal, -, some, -⟩ | ⟨-, idle⟩)
    · obtain ⟨-, rfl⟩ := Request.update.inj equal
      exact ⟨rfl, some⟩
    · exact absurd same idle
  · rintro ⟨rfl, some⟩
    exact Or.inl ⟨spelling, rfl, same, some, takes⟩

/-- A path is shown the findings that stand for it. -/
theorem get?_after {requests : List Request} :
    (after requests).get? path = some items ↔
      ∃ findings, Standing requests path findings ∧ items = findings.map Diagnostic.ofFinding := by
  induction requests using List.reverseRecOn with
  | nil =>
    constructor
    · rintro ⟨⟩
    · rintro ⟨_, ⟨earlier, _, _, equal, _⟩, _⟩
      cases earlier <;> cases equal
  | append_singleton earlier last ih =>
    rw [after_snoc]
    cases last with
    | update spelling asked =>
      rw [get?_serve_update (sound_after earlier)]
      by_cases gone : .dispose ∈ earlier
      · have none : ∀ findings, ¬ Standing earlier path findings :=
          fun findings standing => standing.not_disposed gone
        simp [standing_snoc, (disposed_after earlier).mpr gone, gone, none]
      · have takes : (after earlier).disposed = false := by
          rw [← Bool.not_eq_true, disposed_after]
          exact gone
        by_cases same : Path.same spelling path = true
        · simp only [standing_update gone (Path.same_iff.mp same), takes, same, if_true]
          by_cases none : asked = []
          · simp [none]
          · simp [none, eq_comm]
        · have apart : Path.components spelling ≠ Path.components path :=
            fun equal => same (Path.same_iff.mpr equal)
          simp [standing_snoc, takes, same, apart, Request.Settles, ih]
    | clearTarget root =>
      rw [Request.serve, get?_clearTarget]
      by_cases within : Path.isWithin path root = true
      · simp [standing_snoc, within, Request.Settles, List.isPrefixOf_iff_prefix.mp within]
      · have outside : ¬ Path.components root <+: Path.components path :=
          fun within' => within (List.isPrefixOf_iff_prefix.mpr within')
        simp [standing_snoc, within, Request.Settles, outside, ih]
    | clearAll => simp [standing_snoc, Request.serve, clearAll, get?, Request.Settles]
    | dispose => simp [standing_snoc, Request.serve, dispose, get?, Request.Settles]

/-! ### What the snapshot tells -/

theorem snapshot_perm (store : Diagnostics) : store.snapshot.Perm store.files :=
  List.mergeSort_perm _ _

/-- The snapshot of a store that holds each path once is strictly increasing. -/
theorem Sound.increasing (sound : store.Sound) :
    store.snapshot.Pairwise fun first second =>
      Path.compareComponents (Path.components first.1) (Path.components second.1) = .lt := by
  have apart := (sound.perm store.snapshot_perm).apart
  have sorted : store.snapshot.Pairwise fun first second =>
      Path.le first.1 second.1 = true := by
    apply List.pairwise_mergeSort
    · intro one two three first second
      exact Path.le_trans first second
    · intro one two
      exact Path.le_total one.1 two.1
  refine (apart.and sorted).imp ?_
  rintro first second ⟨differ, before⟩
  have unequal : Path.order first.1 second.1 ≠ .eq := by
    rw [Ne, Path.order_eq_iff, differ]
    exact Bool.false_ne_true
  rw [Path.le_iff] at before
  rw [Path.compareComponents_eq]
  cases found : Path.order first.1 second.1 with
  | lt => exact found
  | eq => exact absurd found unequal
  | gt => simp [found] at before

theorem get?_snapshot (sound : store.Sound) (path : String) :
    get? ⟨store.snapshot, store.disposed⟩ path = store.get? path := by
  ext items
  rw [(sound.perm store.snapshot_perm).get?_eq_some_iff, sound.get?_eq_some_iff]
  simp only [store.snapshot_perm.mem_iff]

theorem total_eq_sum (store : Diagnostics) :
    store.total = (store.snapshot.map fun entry => entry.2.length).sum := by
  rw [total, List.length_flatMap]
  exact ((store.snapshot_perm.map _).sum_eq).symm

theorem count_eq_sum (store : Diagnostics) (level : Level) :
    store.count level =
      (store.snapshot.map fun entry => entry.2.countP fun item => item.level = level).sum := by
  rw [count, List.countP_flatMap]
  exact ((store.snapshot_perm.map _).sum_eq).symm

/-- Every diagnostic is of one level. -/
theorem sum_count (store : Diagnostics) : (Level.all.map store.count).sum = store.total := by
  simp only [Level.all, count, total, List.map_cons, List.map_nil, List.sum_cons, List.sum_nil]
  induction store.files.flatMap fun entry => entry.2 with
  | nil => rfl
  | cons item rest ih =>
    simp only [List.countP_cons, List.length_cons]
    cases item.level <;> simp <;> omega

/-- What a store tells after some requests. -/
structure Tells (requests : List Request) (store : Diagnostics) : Prop where
  /-- The snapshot lists no path twice, and its paths in their order. -/
  increasing : store.snapshot.Pairwise fun first second =>
    Path.compareComponents (Path.components first.1) (Path.components second.1) = .lt
  once : store.snapshot.Pairwise fun first second =>
    Path.components first.1 ≠ Path.components second.1
  filled : ∀ entry ∈ store.snapshot, entry.2 ≠ []
  /-- A path is listed if findings stand for it. -/
  listed (path : String) :
    (∃ entry ∈ store.snapshot, Path.components entry.1 = Path.components path) ↔
      ∃ findings, Standing requests path findings
  /-- A path is listed with the findings that stand for it, in their order. -/
  items (path : String) (items : List Diagnostic) (findings : List Finding) :
    (path, items) ∈ store.snapshot → Standing requests path findings →
      items = findings.map fun finding => ⟨finding.severity.level, finding.line, finding.code,
        finding.code ++ " - " ++ Rule.description finding.code⟩
  found (path : String) : store.get? path =
    (store.snapshot.find? fun entry => Path.components entry.1 = Path.components path).map (·.2)
  total : store.total = (store.snapshot.map fun entry => entry.2.length).sum
  isEmpty : store.isEmpty = true ↔ store.snapshot = []
  count (level : Level) : store.count level =
    (store.snapshot.map fun entry => entry.2.countP fun item => item.level = level).sum
  counts : (Level.all.map store.count).sum = store.total
  /-- Clearing a root spares the paths that only start with its text. -/
  spared (root path : String) : ¬ Path.components root <+: Path.components path →
    (store.clearTarget root).get? path = store.get? path

/-- After any requests a store shows exactly what stands, and tells nothing else. -/
theorem tells_after (requests : List Request) : Tells requests (after requests) := by
  have sound := sound_after requests
  have member : ∀ {entry}, entry ∈ (after requests).snapshot ↔ entry ∈ (after requests).files :=
    (after requests).snapshot_perm.mem_iff
  have shown : ∀ path items, (∃ key, (key, items) ∈ (after requests).files ∧
      Path.components key = Path.components path) ↔
      ∃ findings, Standing requests path findings ∧
        items = findings.map Diagnostic.ofFinding := by
    intro path items
    rw [← get?_after, sound.get?_eq_some_iff]
    simp only [Path.same_iff]
  refine {
    increasing := sound.increasing
    once := sound.increasing.imp ?_
    filled := fun entry there => sound.filled entry (member.mp there)
    listed := fun path => ⟨?_, ?_⟩
    items := ?_
    found := fun path => ?_
    total := total_eq_sum _
    isEmpty := ?_
    count := count_eq_sum _
    counts := sum_count _
    spared := fun root path outside => ?_ }
  · rintro first second before equal
    have same := Path.order_eq_iff.mpr (Path.same_iff.mpr equal)
    rw [Path.order, ← Path.compareComponents_eq, before] at same
    cases same
  · rintro ⟨⟨key, items⟩, there, same⟩
    obtain ⟨findings, standing, -⟩ := (shown path items).mp ⟨key, member.mp there, same⟩
    exact ⟨findings, standing⟩
  · rintro ⟨findings, standing⟩
    obtain ⟨key, there, same⟩ := (shown path _).mpr ⟨findings, standing, rfl⟩
    exact ⟨(key, _), member.mpr there, same⟩
  · intro path items findings there standing
    have own := sound.get?_eq_some_iff.mpr ⟨path, member.mp there, Path.same_refl path⟩
    have also := get?_after.mpr ⟨findings, standing, rfl⟩
    exact Option.some.inj (own.symm.trans also)
  · rw [← get?_snapshot sound, get?]
    simp only [← Path.same_iff, Bool.decide_eq_true]
  · rw [isEmpty, List.isEmpty_iff, ← List.length_eq_zero_iff, ← List.length_eq_zero_iff,
      (after requests).snapshot_perm.length_eq]
  · rw [get?_clearTarget, if_neg]
    rwa [Path.isWithin, List.isPrefixOf_iff_prefix]

example : ((after [.update "/w/one.c" [⟨0, .info, "C-G1", ""⟩],
    .update "/w/one/a.c" [⟨0, .major, "", ""⟩], .clearTarget "/w//one"]).snapshot.map (·.1)) =
      ["/w/one.c"] := by
  decide +kernel

end StyleMonitor.Diagnostics
