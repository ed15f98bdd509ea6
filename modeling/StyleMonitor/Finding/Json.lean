import StyleMonitor.FileFindings
import StyleMonitor.Json.Decode
import StyleMonitor.Json.Write

/-!
Findings as JSON. A severity is a string, a finding an object with the members line, severity,
code and message, and findings by file are an object with a list for each path.
-/

namespace StyleMonitor

/-- A severity as JSON. -/
def Severity.toJson (severity : Severity) : String :=
  Json.writeString severity.text

/-- A severity from JSON. -/
def Severity.decoder : Json.Decoder Severity := fun node =>
  node.asString.map Severity.ofText

namespace Finding

/-- A finding as JSON. -/
def toJson (finding : Finding) : String :=
  Json.writeObject [
    ("line", Decimal.text finding.line.toNat),
    ("severity", finding.severity.toJson),
    ("code", Json.writeString finding.code),
    ("message", Json.writeString finding.message)]

/-- A finding some of whose fields may be missing. -/
structure Draft where
  line : Option UInt32 := none
  severity : Option Severity := none
  code : Option String := none
  message : Option String := none

/-- The fields of a finding in their order. -/
def Draft.fields : List (Json.Field Draft) := [
  .of "line" (Json.Node.asNatBelow (Nat.pow 2 32))
    fun draft line => { draft with line := some (UInt32.ofNat line) },
  .of "severity" Severity.decoder
    fun draft severity => { draft with severity := some severity },
  .of "code" Json.Node.asString fun draft code => { draft with code := some code },
  .of "message" Json.Node.asString fun draft message => { draft with message := some message }]

/-- The finding of a draft that lacks no field. -/
def Draft.complete : Draft → Except Json.Fault Finding
  | ⟨some line, some severity, some code, some message⟩ => .ok ⟨line, severity, code, message⟩
  | _ => .error .mismatch

/-- A finding from JSON. -/
def decoder : Json.Decoder Finding := fun node => do
  (← Json.asRecord Draft.fields {} node).complete

end Finding

namespace FileFindings

/-- Findings by file as JSON, sorted by path. -/
def toJson (findings : FileFindings) : String :=
  Json.writeObject (findings.sorted.map fun (path, list) =>
    (path, Json.writeArray (list.map Finding.toJson)))

/-- Findings by file from JSON. Of a path that comes twice the last list counts. -/
def decoder : Json.Decoder FileFindings := fun node => do
  let members ← node.asMembers (Json.Node.asList Finding.decoder)
  return members.foldl (fun findings (path, list) => findings.replace path list) .empty

end FileFindings

end StyleMonitor
