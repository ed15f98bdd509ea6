import StyleMonitor.Disk.AtomicWrite
import StyleMonitor.Instant
import StyleMonitor.Json.Decode
import StyleMonitor.Json.Write

/-!
Freshness: when images were last pulled, by key. The record is kept in memory, to the nanosecond,
or in a file, in whole milliseconds. The file is a JSON object; one that cannot be read counts as
empty, and is replaced as a whole when something is recorded.
-/

namespace StyleMonitor

/-- Milliseconds by key, sorted by key, with no key twice. -/
abbrev PullTable := List (String × Nat)

namespace PullTable

/-- The table with this value for a key. -/
def insert (key : String) (millis : Nat) : PullTable → PullTable
  | [] => [(key, millis)]
  | (other, value) :: rest =>
    if other = key then (key, millis) :: rest
    else if key < other then (key, millis) :: (other, value) :: rest
    else (other, value) :: insert key millis rest

/-- The table without a key. -/
def erase (key : String) (table : PullTable) : PullTable :=
  table.filter fun entry => entry.1 ≠ key

/-- The table of a text, if it holds one. Of a key that comes twice the last value counts. -/
def ofText? (text : String) : Option PullTable :=
  match Json.decode (Json.Node.asMembers (Json.Node.asNatBelow (Nat.pow 2 64))) text with
  | .ok members => some (members.foldl (fun table (key, millis) => insert key millis table) [])
  | .error _ => none

/-- The text of a table. -/
def text (table : PullTable) : String :=
  Json.writeObjectLines (table.map fun (key, millis) => (key, Decimal.text millis))

end PullTable

/-- A record of last pulls (`FreshnessStore`). -/
inductive Freshness where
  | memory (pulls : List (String × Instant))
  | file (path : String)
  deriving DecidableEq, Repr

namespace Freshness

/-- The table that a file holds, after a parked file was put back
(`JsonFreshnessStore::read_entries`). -/
def readTable (path : String) : Session PullTable := do
  Session.recoverBackup path
  match ← Session.attempt (Session.readText path) with
  | .ok text => return (PullTable.ofText? text).getD []
  | .error _ => return []

/-- Changes the table that a file holds (`JsonFreshnessStore::update`). -/
def changeTable (path : String) (change : PullTable → PullTable) : Session Unit := do
  let table ← readTable path
  Session.atomicWrite path (Text.encode (change table).text)

/-- The last pull under a key (`FreshnessStore::last_pull`). -/
def last? (record : Freshness) (key : String) : Session (Option Instant) :=
  match record with
  | memory pulls => return pulls.lookup key
  | file path => do
    return ((← readTable path).lookup key).map fun millis => Instant.ofMillis millis

/-- Records a pull under a key (`FreshnessStore::record_pull`). -/
def record (self : Freshness) (key : String) (instant : Instant) : Session Freshness :=
  match self with
  | memory pulls => return memory ((key, instant) :: pulls.filter fun entry => entry.1 ≠ key)
  | file path => do
    changeTable path (PullTable.insert key instant.recordedMillis)
    return file path

/-- Forgets the last pull under a key (`FreshnessStore::forget`). -/
def forget (self : Freshness) (key : String) : Session Freshness :=
  match self with
  | memory pulls => return memory (pulls.filter fun entry => entry.1 ≠ key)
  | file path => do
    changeTable path (PullTable.erase key)
    return file path

end Freshness

end StyleMonitor
