import Mathlib.Logic.Function.Basic
import StyleMonitor.Proofs.Disk.Unrefused
import StyleMonitor.Proofs.Freshness.Table

/-!
# A record in a file is a map

A record of pulls that is kept in a file answers as a map from keys to milliseconds would. The map
starts as what the file holds, or the parked file where there is no file. Each request reads the
whole file, and a change writes it as a whole; so a change sets or removes one key. It fails only if
a call of the write is refused or there is no room for the file, and then it changes nothing.
-/

namespace StyleMonitor.Freshness

open Disk Session

variable {disk : Disk} {path key : String} {instant : Instant} {refusals : List (Option Cause)}

/-! ### The map -/

/-- Milliseconds by key. -/
abbrev Pulls := String → Option Nat

/-- The whole milliseconds since the start of 1970, rounded down and kept within 64 bits. -/
def clampedMillis (instant : Instant) : Nat :=
  if instant.nanos < 0 then 0 else min (instant.nanos / 1000000).toNat (Nat.pow 2 64 - 1)

/-- The map that a content stands for: its members, of which the last with a key counts. A content
that is not a text of such members stands for the empty map, as does a missing one. -/
def pullsIn (content : Option Bytes) : Pulls := fun key =>
  ((content.bind Text.decode?).bind PullTable.members?).bind fun members =>
    members.reverse.lookup key

/-- What a record is asked for. Of the calls that a change makes once it has read the file, these
are refused. -/
inductive Request where
  | last (key : String)
  | record (key : String) (instant : Instant) (refusals : List (Option Cause))
  | forget (key : String) (refusals : List (Option Cause))
  | reopen
  deriving DecidableEq, Repr

inductive Answer where
  | pull (instant : Option Instant)
  | done
  | failed (failure : Failure)
  deriving DecidableEq, Repr

/-- The disk once a parked file was put back. -/
def restored (path : String) (disk : Disk) : Disk :=
  (recoverBackup path ⟨disk, []⟩).2.disk

/-- What can keep a change from being made: a call is refused, or there is no room for the file. -/
def Hindered (path : String) (disk : Disk) (refusals : List (Option Cause)) : Prop :=
  Refusing refusals ∨ ¬ Writable path (restored path disk)

/-- What a map may answer to a request that finds this disk, and the map that is left. A change is
done unless something hinders it. -/
inductive Allowed (path : String) (disk : Disk) (pulls : Pulls) : Request → Answer → Pulls → Prop
  | last (key : String) : Allowed path disk pulls (.last key)
      (.pull ((pulls key).map fun millis => Instant.ofMillis millis)) pulls
  | recorded (key : String) (instant : Instant) (refusals : List (Option Cause)) :
      Allowed path disk pulls (.record key instant refusals) .done
        (Function.update pulls key (some (clampedMillis instant)))
  | forgotten (key : String) (refusals : List (Option Cause)) :
      Allowed path disk pulls (.forget key refusals) .done (Function.update pulls key none)
  | unrecorded (key : String) (instant : Instant) {refusals : List (Option Cause)}
      (failure : Failure) (hindered : Hindered path disk refusals) :
      Allowed path disk pulls (.record key instant refusals) (.failed failure) pulls
  | unforgotten (key : String) {refusals : List (Option Cause)} (failure : Failure)
      (hindered : Hindered path disk refusals) :
      Allowed path disk pulls (.forget key refusals) (.failed failure) pulls
  | reopened : Allowed path disk pulls .reopen .done pulls

/-- A request that was served, with the disk that it found and the answer. -/
structure Served where
  disk : Disk
  request : Request
  answer : Answer
  deriving DecidableEq, Repr

/-- A map that started as `pulls` may have given these answers in turn. -/
inductive Explained (path : String) : Pulls → List Served → Prop
  | none {pulls : Pulls} : Explained path pulls []
  | more {pulls next : Pulls} {served : Served} {later : List Served}
      (allowed : Allowed path served.disk pulls served.request served.answer next)
      (rest : Explained path next later) : Explained path pulls (served :: later)

/-! ### The file -/

/-- The calls that reading the table of a path takes. -/
def readingCalls (path : String) (disk : Disk) : Nat :=
  if disk.isThere path then 2 else if disk.isThere (backupPath path) then 4 else 3

/-- A volume that refuses no call while the table is read, and these of the calls after that. -/
def letRead (path : String) (disk : Disk) (refusals : List (Option Cause)) : Volume :=
  ⟨disk, List.replicate (readingCalls path disk) none ++ refusals⟩

/-- The answer to a change, with the record and the disk that it leaves. -/
def changed (store : Freshness) : Except Failure Freshness × Volume → Answer × Freshness × Disk
  | (.ok store, later) => (.done, store, later.disk)
  | (.error failure, later) => (.failed failure, store, later.disk)

/-- Serves a request from the file of a path. -/
def Request.serve (path : String) (store : Freshness) (disk : Disk) :
    Request → Answer × Freshness × Disk
  | last key =>
    match store.last? key (letRead path disk []) with
    | (.ok pull, later) => (.pull pull, store, later.disk)
    | (.error failure, later) => (.failed failure, store, later.disk)
  | record key instant refusals =>
    changed store (store.record key instant (letRead path disk refusals))
  | forget key refusals => changed store (store.forget key (letRead path disk refusals))
  | reopen => (.done, .file path, disk)

/-- Serves requests in turn. -/
def serveAll (path : String) (store : Freshness) (disk : Disk) : List Request → List Served
  | [] => []
  | request :: later =>
    let (answer, store, after) := request.serve path store disk
    ⟨disk, request, answer⟩ :: serveAll path store after later

/-! ### Reading -/

/-- Recovery leaves at the path what the path holds. -/
theorem recoverBackup_letRead (storable : Storable path) (tended : Tended path disk) :
    ∃ after, (∀ refusals, recoverBackup path (letRead path disk refusals) =
        (.ok (), ⟨after, none :: refusals⟩)) ∧
      Tended path after ∧ after.file? path = disk.held? path ∧
      after.held? path = disk.held? path := by
  have there := isThere_eq tended.sound tended.plain
  have parked := isThere_eq tended.sound tended.plainBackup
  cases file : disk.file? path with
  | some content =>
    rw [file, Option.isSome_some] at there
    refine ⟨disk, fun refusals => ?_, tended, ?_, rfl⟩
    · simp [recoverBackup, letRead, readingCalls, there, bind_apply, isThere_spared]
    · simp [held?, file]
  | none =>
    rw [file, Option.isSome_none] at there
    cases backup : disk.file? (backupPath path) with
    | none =>
      rw [backup, Option.isSome_none] at parked
      refine ⟨disk, fun refusals => ?_, tended, ?_, rfl⟩
      · simp [recoverBackup, letRead, readingCalls, there, parked, bind_apply, isThere_spared]
      · simp [held?, file, backup]
    | some content =>
      rw [backup, Option.isSome_some] at parked
      -- Only the parked file is there. It is put back before the file is read.
      obtain ⟨after, renamed, tended', restored⟩ := tended.recover storable backup
      refine ⟨after, fun refusals => ?_, tended', ?_, ?_⟩
      · simp [recoverBackup, letRead, readingCalls, there, parked, bind_apply, isThere_spared,
          rename_spared renamed]
      · simp [held?, file, backup, restored]
      · simp [held?, file, backup, restored]

/-- If no call of the reading is refused, the disk that it leaves is the restored one. -/
theorem eq_restored {after : Disk} {refusals : List (Option Cause)}
    (ran : recoverBackup path (letRead path disk []) = (.ok (), ⟨after, refusals⟩)) :
    after = restored path disk := by
  obtain ⟨left, same⟩ := recoverBackup_indifferent path ⟨disk, []⟩ (readingCalls path disk)
  rw [Volume.granting, List.nil_append] at same
  rw [letRead, List.append_nil, same] at ran
  exact (congrArg (·.2.disk) ran).symm

/-- The table that is read from a content. -/
def tableIn (content : Option Bytes) : PullTable :=
  ((content.bind Text.decode?).bind PullTable.ofText?).getD []

/-- Reading gives the table of what the path holds, and the path goes on holding it. -/
theorem readTable_letRead (storable : Storable path) (tended : Tended path disk)
    (refusals : List (Option Cause)) :
    readTable path (letRead path disk refusals) =
        (.ok (tableIn (disk.held? path)), ⟨restored path disk, refusals⟩) ∧
      Tended path (restored path disk) ∧ (restored path disk).held? path = disk.held? path := by
  obtain ⟨after, recovered, tended', file, held⟩ := recoverBackup_letRead storable tended
  obtain rfl := eq_restored (recovered [])
  obtain ⟨result, read, text⟩ := readText_spared path (restored path disk) refusals
  refine ⟨?_, tended', held⟩
  rw [readTable, bind_ok (recovered refusals), bind_apply, attempt_apply, read, tableIn, ← file,
    Disk.file?, ← text]
  cases result <;> rfl

theorem lookup_tableIn (content : Option Bytes) (key : String) :
    (tableIn content).Sound ∧ (tableIn content).lookup key = pullsIn content key := by
  unfold tableIn pullsIn
  cases content.bind Text.decode? with
  | none => exact ⟨.nil, rfl⟩
  | some text => exact PullTable.lookup_ofText? text key

/-- The map that the text of a table stands for. -/
theorem pullsIn_text {table : PullTable} (sound : table.Sound) :
    pullsIn (some (Text.encode table.text)) = fun key => table.lookup key := by
  funext key
  rw [← (lookup_tableIn _ key).2, tableIn, Option.bind_some, Text.decode?_encode, Option.bind_some,
    PullTable.ofText?_text sound, Option.getD_some]

/-! ### Writing -/

/-- A change makes the path hold the changed table, or something hinders it and the path holds what
it held. -/
theorem changeTable_letRead {change : PullTable → PullTable} (storable : Storable path)
    (tended : Tended path disk) (keeps : ∀ table : PullTable, table.Sound → (change table).Sound)
    (refusals : List (Option Cause)) :
    (∃ later, changeTable path change (letRead path disk refusals) = (.ok (), later) ∧
      Tended path later.disk ∧
      pullsIn (later.disk.held? path) = fun key =>
        (change (tableIn (disk.held? path))).lookup key) ∨
    ∃ failure later, changeTable path change (letRead path disk refusals) =
        (.error failure, later) ∧
      Tended path later.disk ∧ later.disk.held? path = disk.held? path ∧
      Hindered path disk refusals := by
  obtain ⟨read, tended', held⟩ := readTable_letRead storable tended refusals
  rw [changeTable, bind_ok read]
  have wrote := atomicWrite_ensures storable tended'
    (Text.encode (change (tableIn (disk.held? path))).text) refusals
  cases ran : atomicWrite path (Text.encode (change (tableIn (disk.held? path))).text)
      ⟨restored path disk, refusals⟩ with
  | mk outcome later =>
    rw [ran] at wrote
    cases outcome with
    | ok =>
      obtain ⟨tended, file⟩ := wrote
      refine Or.inl ⟨later, rfl, tended, ?_⟩
      have sound := keeps _ (lookup_tableIn (disk.held? path) "").1
      rw [held?, file, Option.some_or, pullsIn_text sound]
    | error failure =>
      obtain ⟨tended, same⟩ := wrote
      exact Or.inr ⟨failure, later, rfl, tended, same.trans held,
        hindered_of_atomicWrite storable (ready_iff_tended.mpr tended') ran⟩

theorem recordedMillis_eq (instant : Instant) :
    instant.recordedMillis = clampedMillis instant := by
  simp only [Instant.recordedMillis, Instant.millis, Instant.perMilli, clampedMillis]
  split
  · next early =>
    have whole : (instant.nanos / 1000000).toNat = 0 := by omega
    rw [whole, Nat.zero_min]
  · rfl

theorem recordedMillis_lt (instant : Instant) : instant.recordedMillis < Nat.pow 2 64 := by
  have limit : Nat.pow 2 64 = 2 ^ 64 := rfl
  rw [Instant.recordedMillis, limit]
  omega

/-! ### Requests -/

/-- A change that comes to another value for one key, or to none. -/
theorem changed_allowed {change : PullTable → PullTable} {value : Option Nat}
    (storable : Storable path) (tended : Tended path disk)
    (keeps : ∀ table : PullTable, table.Sound → (change table).Sound)
    (sets : ∀ (table : PullTable) (other : String),
      (change table).lookup other = if other = key then value else table.lookup other)
    (refusals : List (Option Cause)) :
    ∃ answer after, changed (.file path) ((do
        changeTable path change
        return Freshness.file path : Session Freshness) (letRead path disk refusals)) =
          (answer, .file path, after) ∧
      Tended path after ∧
      ((answer = .done ∧
          pullsIn (after.held? path) = Function.update (pullsIn (disk.held? path)) key value) ∨
        ∃ failure, answer = .failed failure ∧
          pullsIn (after.held? path) = pullsIn (disk.held? path) ∧
          Hindered path disk refusals) := by
  rcases changeTable_letRead storable tended keeps refusals with
    ⟨later, ran, tended', holds⟩ | ⟨failure, later, ran, tended', holds, hindered⟩
  · refine ⟨.done, later.disk, ?_, tended', Or.inl ⟨rfl, ?_⟩⟩
    · rw [bind_ok ran]
      rfl
    · funext other
      rw [holds, Function.update_apply, ← (lookup_tableIn _ other).2]
      exact sets _ other
  · refine ⟨.failed failure, later.disk, ?_, tended', Or.inr ⟨failure, rfl, ?_, hindered⟩⟩
    · rw [bind_error ran]
      rfl
    · rw [holds]

/-- One request is answered as the map answers it, and the map that is left is held. -/
theorem Request.serve_allowed (storable : Storable path) (tended : Tended path disk)
    (request : Request) :
    ∃ answer after, request.serve path (.file path) disk = (answer, .file path, after) ∧
      Tended path after ∧
      Allowed path disk (pullsIn (disk.held? path)) request answer
        (pullsIn (after.held? path)) := by
  cases request with
  | last key =>
    obtain ⟨read, tended', held⟩ := readTable_letRead storable tended []
    refine ⟨.pull ((pullsIn (disk.held? path) key).map fun millis => Instant.ofMillis millis),
      restored path disk, ?_, tended', ?_⟩
    · rw [serve, last?, bind_ok read, (lookup_tableIn _ key).2]
      rfl
    · rw [held]
      exact .last key
  | record key instant refusals =>
    have small := recordedMillis_lt instant
    obtain ⟨answer, after, ran, tended', ⟨rfl, holds⟩ | ⟨failure, rfl, holds, hindered⟩⟩ :=
      changed_allowed storable tended (fun table sound => sound.insert key small)
        (PullTable.lookup_insert key instant.recordedMillis) refusals
    · refine ⟨_, after, ran, tended', ?_⟩
      rw [holds, recordedMillis_eq]
      exact .recorded key instant refusals
    · refine ⟨_, after, ran, tended', ?_⟩
      rw [holds]
      exact .unrecorded key instant failure hindered
  | forget key refusals =>
    obtain ⟨answer, after, ran, tended', ⟨rfl, holds⟩ | ⟨failure, rfl, holds, hindered⟩⟩ :=
      changed_allowed storable tended (fun table sound => sound.erase key)
        (PullTable.lookup_erase key) refusals
    · refine ⟨_, after, ran, tended', ?_⟩
      rw [holds]
      exact .forgotten key refusals
    · refine ⟨_, after, ran, tended', ?_⟩
      rw [holds]
      exact .unforgotten key failure hindered
  | reopen => exact ⟨.done, disk, rfl, tended, .reopened⟩

theorem explained_of_tended (storable : Storable path) (tended : Tended path disk)
    (requests : List Request) :
    Explained path (pullsIn (disk.held? path)) (serveAll path (.file path) disk requests) := by
  induction requests generalizing disk with
  | nil => exact .none
  | cons request later ih =>
    obtain ⟨answer, after, served, tended', allowed⟩ := request.serve_allowed storable tended
    rw [serveAll, served]
    exact .more allowed (ih tended')

/-- A path that a record can be kept at: its file and its parked file are there as files or not at
all, and where only the parked file is there it can be put back. -/
structure Readable (path : String) (disk : Disk) : Prop where
  extension : Path.extension? path ≠ some "bak"
  sound : disk.Sound
  plain : disk.Plain path
  plainBackup : disk.Plain (backupPath path)
  recovers : disk.isThere path = false → disk.isThere (backupPath path) = true →
    (disk.rename (backupPath path) path).isOk = true

theorem Readable.clear (readable : Readable path disk) (storable : Storable path)
    (parked : disk.file? (backupPath path) ≠ none) : disk.Clear path := by
  obtain ⟨-, sound, plain, plainBackup, recovers⟩ := readable
  cases file : disk.file? path with
  | some content => exact clear_of_file? sound plain file
  | none =>
    have missing : disk.isThere path = false := by
      rw [isThere_eq sound plain, file, Option.isSome_none]
    have there : disk.isThere (backupPath path) = true := by
      rw [isThere_eq sound plainBackup, Option.isSome_iff_ne_none]
      exact parked
    have renamed := recovers missing there
    cases ran : disk.rename (backupPath path) path with
    | error failure =>
      rw [ran] at renamed
      cases renamed
    | ok after =>
      obtain ⟨content, renames⟩ :=
        rename_renames sound plainBackup plain (storable.apart disk).symm ran
      exact renames.clear

/-- A record in a file answers as a map, if every directory is there that a `..` in its path leads
up from, and if it has not the name of a temporary file. A change fails only if a call is refused or
there is no room for the file. -/
theorem serveAll_explained (readable : Readable path disk) (upward : disk.Upward path)
    (lasting : ∀ n, Path.fileName? path ≠ some (temporaryName n)) (requests : List Request) :
    Explained path (pullsIn (disk.held? path)) (serveAll path (.file path) disk requests) := by
  have storable : Storable path := ⟨readable.extension, lasting⟩
  have tended : Tended path disk :=
    ⟨readable.sound, upward, readable.plain, readable.plainBackup, readable.clear storable⟩
  exact explained_of_tended storable tended requests

/-- A record of which only the parked file is there, with a key twice. Nothing hinders the changes
but the refused call. -/
theorem serveAll_explained_parked :
    let disk : Disk :=
      { tree := ⟨[(["s.bak"], .file (Text.encode "\x7b\"k\": 1, \"k\": 2\x7d") false)]⟩ }
    let trace := serveAll "s.json" (.file "s.json") disk
      [.last "k", .record "k" ⟨3999999⟩ [none, none, some .permissionDenied], .reopen, .last "k",
        .record "j" ⟨3999999⟩ [], .forget "k" [], .last "k", .last "j"]
    disk.isThere "s.json" = false ∧ disk.isThere "s.bak" = true ∧
      Explained "s.json" (pullsIn (disk.held? "s.json")) trace ∧
      trace.map Served.answer = [.pull (some ⟨2000000⟩), .failed (.refused .permissionDenied), .done,
        .pull (some ⟨2000000⟩), .done, .done, .pull none, .pull (some ⟨3000000⟩)] ∧
      ¬ Hindered "s.json" disk [] := by
  intro disk trace
  have own : disk.leads "s.json" = some (["s.json"], true) := by decide +kernel
  have parked : disk.leads (backupPath "s.json") = some (["s.bak"], true) := by decide +kernel
  have named : Path.fileName? "s.json" = some "s.json" := by decide +kernel
  have readable : Readable "s.json" disk :=
    { extension := by decide +kernel
      sound := ⟨Tree.grounded_of_mem (by decide +kernel), rfl⟩
      plain := plain_of_leads own (Or.inl rfl)
      plainBackup := plain_of_leads parked (Or.inr ⟨_, _, rfl⟩)
      recovers := fun _ _ => by decide +kernel }
  have lasting : ∀ n, Path.fileName? "s.json" ≠ some (temporaryName n) := by
    intro n same
    obtain ⟨digits, -, -, chars⟩ := toList_temporaryName n
    rw [named] at same
    rw [← Option.some.inj same] at chars
    revert chars
    simp
  have upward := upward_of_not_mem (show ".." ∉ steps "s.json" by decide +kernel) disk
  refine ⟨by decide +kernel, by decide +kernel, serveAll_explained readable upward lasting _,
    by decide +kernel, ?_⟩
  rintro (⟨cause, ⟨⟩⟩ | full)
  refine full ⟨restored "s.json" disk, "/./.tmp000000",
    { tree := (restored "s.json" disk).tree.insert [".tmp000000"] (.file [] false) },
    show (_ : Except Failure Unit × Volume) = _ by decide +kernel,
    show (_ : Except Failure String × Volume) = _ by decide +kernel,
    ⟨["s.json"], by decide +kernel⟩, by decide +kernel⟩

/-! ### Where a record is no map -/

theorem Allowed.of_last {pulls next : Pulls} {answer : Answer}
    (allowed : Allowed path disk pulls (.last key) answer next) :
    answer = .pull ((pulls key).map fun millis => Instant.ofMillis millis) ∧ next = pulls := by
  cases allowed
  exact ⟨rfl, rfl⟩

theorem Allowed.of_failed {pulls next : Pulls} {request : Request} {failure : Failure}
    (allowed : Allowed path disk pulls request (.failed failure) next) : next = pulls := by
  cases allowed <;> rfl

/-- No map has a new answer after a change that failed. -/
theorem not_explained_of_failed {pulls : Pulls} {store : Freshness} {request : Request}
    (failure : Failure) (instant : Instant)
    (answers : (serveAll path store disk [.last key, request, .last key]).map Served.answer =
      [.pull none, .failed failure, .pull (some instant)]) :
    ¬ Explained path pulls (serveAll path store disk [.last key, request, .last key]) := by
  simp only [serveAll, List.map_cons, List.cons.injEq] at answers ⊢
  obtain ⟨one, two, three, -⟩ := answers
  rw [one, two, three]
  rintro (_ | ⟨first, _ | ⟨failed, _ | ⟨last, -⟩⟩⟩)
  obtain ⟨before, rfl⟩ := first.of_last
  cases failed.of_failed
  obtain ⟨after, -⟩ := last.of_last
  rw [← before] at after
  cases after

/-- A failed change can bring up a file that was out of reach: it has made the directory `x`. And
a record with the name of a temporary file keeps the draft of a failed change, if that cannot be
removed. -/
theorem serveAll_not_explained :
    let hidden : Disk :=
      { tree := ⟨[(["y"], .file (Text.encode "\x7b\"k\": 1\x7d") false)]⟩ }
    (Readable "x/../y" hidden ∧
      ¬ Explained "x/../y" (pullsIn (hidden.held? "x/../y"))
        (serveAll "x/../y" (.file "x/../y") hidden [.last "k",
          .record "j" ⟨0⟩ [none, none, none, none, some .permissionDenied], .last "k"])) ∧
    Readable ".tmp000000" {} ∧
      ¬ Explained ".tmp000000" (pullsIn (({} : Disk).held? ".tmp000000"))
        (serveAll ".tmp000000" (.file ".tmp000000") {} [.last "k",
          .record "k" ⟨1000000⟩ [none, none, none, none, some .permissionDenied,
            some .permissionDenied], .last "k"]) := by
  intro hidden
  have nowhere : hidden.leads "x/../y" = none := by decide +kernel
  have nowhere' : hidden.leads (backupPath "x/../y") = none := by decide +kernel
  have own : ({} : Disk).leads ".tmp000000" = some ([".tmp000000"], true) := by decide +kernel
  have parked : ({} : Disk).leads (backupPath ".tmp000000") =
      some ([".tmp000000.bak"], true) := by decide +kernel
  refine ⟨⟨?_, ?_⟩, ?_, ?_⟩
  · exact
      { extension := by decide +kernel
        sound := ⟨Tree.grounded_of_mem (by decide +kernel), rfl⟩
        plain := plain_of_leads_none nowhere
        plainBackup := plain_of_leads_none nowhere'
        recovers := by decide +kernel }
  · exact not_explained_of_failed (.refused .permissionDenied) ⟨1000000⟩ (by decide +kernel)
  · exact
      { extension := by decide +kernel
        sound := ⟨Tree.grounded_of_mem nofun, rfl⟩
        plain := plain_of_leads own (Or.inl rfl)
        plainBackup := plain_of_leads parked (Or.inl rfl)
        recovers := by decide +kernel }
  · exact not_explained_of_failed (.refused .permissionDenied) ⟨1000000⟩ (by decide +kernel)

end StyleMonitor.Freshness
