import StyleMonitor.Finding.Json
import StyleMonitor.Proofs.FileFindings
import StyleMonitor.Proofs.Json.Compact

/-!
# Findings are read back from their JSON

A severity is written as its text, and its text gives it back if it is the severity that this text
stands for. A finding is an object of four members, and findings by file are an object with a list
for each path; both are read back as they were, the files in whatever order they were written.
-/

namespace StyleMonitor

namespace Severity

variable {severity : Severity}

/-- The severities that some text stands for: not those that hold the text of a known severity
without being it. -/
def Parsed (severity : Severity) : Prop :=
  ∃ raw, severity = ofText raw

theorem Parsed.ofText_text (parsed : severity.Parsed) : ofText severity.text = severity := by
  obtain ⟨raw, rfl⟩ := parsed
  rw [text_ofText]

/-- The JSON value of a severity. -/
def tree (severity : Severity) : Json.Node :=
  .string (.ok severity.text)

theorem written_toJson (severity : Severity) :
    Json.Written severity.toJson.toList severity.tree :=
  Json.written_writeString severity.text

theorem Parsed.decoder_tree (parsed : severity.Parsed) : decoder severity.tree = .ok severity :=
  congrArg Except.ok parsed.ofText_text

end Severity

namespace Finding

variable {finding : Finding}

/-- The JSON value of a finding. -/
def tree (finding : Finding) : Json.Node :=
  .object [
    (.ok "line", .number (Json.natural finding.line.toNat)),
    (.ok "severity", finding.severity.tree),
    (.ok "code", .string (.ok finding.code)),
    (.ok "message", .string (.ok finding.message))] .closed

/-- The members of a finding: the name of each, how it is written, and its value. -/
def members (finding : Finding) : List (String × String × Json.Node) := [
  ("line", Decimal.text finding.line.toNat, .number (Json.natural finding.line.toNat)),
  ("severity", finding.severity.toJson, finding.severity.tree),
  ("code", Json.writeString finding.code, .string (.ok finding.code)),
  ("message", Json.writeString finding.message, .string (.ok finding.message))]

theorem written_toJson (finding : Finding) : Json.Written finding.toJson.toList finding.tree := by
  have text : finding.toJson =
      Json.writeObject (finding.members.map fun member => (member.1, member.2.1)) := rfl
  have tree : finding.tree =
      .object (finding.members.map fun member => (.ok member.1, member.2.2)) .closed := rfl
  rw [text, tree]
  apply Json.written_writeObject
  intro member listed
  simp only [members, List.mem_cons, List.not_mem_nil, or_false] at listed
  rcases listed with rfl | rfl | rfl | rfl
  · exact Json.written_text finding.line.toNat
  · exact finding.severity.written_toJson
  · exact Json.written_writeString finding.code
  · exact Json.written_writeString finding.message

theorem asNatBelow_line (line : UInt32) :
    Json.Node.asNatBelow (Nat.pow 2 32) (.number (Json.natural line.toNat)) = .ok line.toNat := by
  have small : line.toNat < Nat.pow 2 32 := line.toNat_lt
  simp [Json.Node.asNatBelow, Json.Number.natBelow?, Json.natural, small]

theorem decoder_tree (parsed : finding.severity.Parsed) : decoder finding.tree = .ok finding := by
  have line := asNatBelow_line finding.line
  have severity := parsed.decoder_tree
  simp [decoder, tree, Json.asRecord, Json.takeMembers, Draft.fields, Json.Field.of, line,
    severity, Json.Node.asString, Json.Node.finish, Draft.complete, bind, Except.bind,
    pure, Except.pure, Except.map]

end Finding

namespace FileFindings

variable {findings : FileFindings} {files : List (String × List Finding)}

/-- Files with their findings as JSON, in this order. -/
def jsonOf (files : List (String × List Finding)) : String :=
  Json.writeObject (files.map fun file => (file.1, Json.writeArray (file.2.map Finding.toJson)))

/-- The JSON value of files with their findings, in this order. -/
def treeOf (files : List (String × List Finding)) : Json.Node :=
  .object (files.map fun file => (.ok file.1, .array (file.2.map Finding.tree) .closed)) .closed

/-- The files are written in the order of their paths. -/
theorem toJson_eq (findings : FileFindings) :
    findings.toJson = jsonOf findings.sorted ∧ findings.sorted.Perm findings.files :=
  ⟨rfl, List.mergeSort_perm _ _⟩

theorem written_jsonOf (files : List (String × List Finding)) :
    Json.Written (jsonOf files).toList (treeOf files) := by
  apply Json.written_writeObject
  intro file _
  apply Json.written_writeArray
  intro finding _
  exact finding.written_toJson

theorem decoder_treeOf (distinct : (files.map (·.1)).Nodup)
    (parsed : ∀ file ∈ files, ∀ finding ∈ file.2, finding.severity.Parsed) :
    decoder (treeOf files) = .ok ⟨files⟩ := by
  have each : ∀ file ∈ files, Json.memberOf (Json.Node.asList Finding.decoder)
      (.ok file.1, .array (file.2.map Finding.tree) .closed) = .ok file := by
    intro file member
    have list := Json.mapM_map_eq_ok fun finding own =>
      Finding.decoder_tree (parsed file member finding own)
    simp only [Json.memberOf, Json.Node.asList, list]
    rfl
  have members := Json.mapM_map_eq_ok each
  rw [decoder, treeOf, Json.asMembers_object, members]
  exact congrArg Except.ok (foldl_replace [] distinct)

/-- Findings by file, single findings and severities are each written as one JSON value, and are
read back from it as they were, if their severities are such as a text stands for. The files may
be written in any order, of which that of their paths is one. -/
theorem readsAs_of_parsed (distinct : findings.Distinct)
    (parsed : ∀ file ∈ findings.files, ∀ finding ∈ file.2, finding.severity.Parsed)
    (order : files.Perm findings.files) {finding : Finding} (own : finding.severity.Parsed)
    (raw : String) :
    (∃ read, Json.ReadsAs decoder (jsonOf files) (treeOf files) read ∧
      read.files.Perm findings.files ∧ ∀ path, read.get? path = findings.get? path) ∧
    (findings.toJson = jsonOf findings.sorted ∧ findings.sorted.Perm findings.files) ∧
    Json.ReadsAs Finding.decoder finding.toJson finding.tree finding ∧
    Json.ReadsAs Severity.decoder (Severity.ofText raw).toJson (.string (.ok raw))
      (Severity.ofText raw) := by
  have same := distinct.get?_eq_of_perm order
  have taken := decoder_treeOf (distinct.of_perm order) fun file member =>
    parsed file (order.mem_iff.mp member)
  have severity := (Severity.written_toJson (.ofText raw)).readsAs
    (Severity.Parsed.decoder_tree ⟨raw, rfl⟩)
  rw [Severity.tree, Severity.text_ofText] at severity
  exact ⟨⟨⟨files⟩, (written_jsonOf files).readsAs taken, order, same⟩, toJson_eq findings,
    finding.written_toJson.readsAs (Finding.decoder_tree own), severity⟩

/-- Findings at odd paths: one without a list, and one whose findings have the greatest line, a
severity that is not known, and texts of quotes, backslashes and control characters. -/
def odd : FileFindings :=
  ⟨[("a\"\\.c", []), ("é/\x01.c", [⟨4294967295, .unrecognized "FATAL", "", "\n\t\x7f"⟩,
    ⟨0, .major, "C-F3", "MAJOR:C-F3"⟩])]⟩

theorem readsAs_of_parsed_odd :
    odd.Distinct ∧ (∀ file ∈ odd.files, ∀ finding ∈ file.2, finding.severity.Parsed) ∧
    odd.files.reverse.Perm odd.files ∧ Severity.minor.Parsed ∧
    (∃ read, Json.ReadsAs decoder (jsonOf odd.files.reverse) (treeOf odd.files.reverse) read ∧
      read.files.Perm odd.files ∧ ∀ path, read.get? path = odd.get? path) ∧
    (odd.toJson = jsonOf odd.sorted ∧ odd.sorted.Perm odd.files) ∧
    Json.ReadsAs Finding.decoder (Finding.toJson ⟨1, .minor, "\"", "/"⟩)
      (Finding.tree ⟨1, .minor, "\"", "/"⟩) ⟨1, .minor, "\"", "/"⟩ ∧
    Json.ReadsAs Severity.decoder (Severity.ofText "INFO").toJson (.string (.ok "INFO"))
      (Severity.ofText "INFO") := by
  have distinct : odd.Distinct := by
    unfold Distinct
    decide
  have parsed : ∀ file ∈ odd.files, ∀ finding ∈ file.2, finding.severity.Parsed := by
    simp only [odd, List.forall_mem_cons]
    refine ⟨nofun, ⟨⟨"FATAL", rfl⟩, ⟨"MAJOR", rfl⟩, nofun⟩, nofun⟩
  have order : odd.files.reverse.Perm odd.files := List.reverse_perm _
  have own : (⟨1, .minor, "\"", "/"⟩ : Finding).severity.Parsed := ⟨"MINOR", rfl⟩
  exact ⟨distinct, parsed, order, own,
    readsAs_of_parsed distinct parsed order own "INFO"⟩

end FileFindings

end StyleMonitor
