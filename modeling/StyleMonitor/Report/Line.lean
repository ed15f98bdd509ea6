import StyleMonitor.Decimal
import StyleMonitor.Finding
import StyleMonitor.Text.Blank
import StyleMonitor.Text.Fields
import StyleMonitor.Text.Quoted

/-!
Lines of a report. A line has the form `path:line:severity:code:free text`, where the free text
may hold further colons or be missing together with its colon. The line number counts from 1;
blanks around it, around the severity and around the code do not matter.
-/

namespace StyleMonitor.Report

/-- Why a report line holds no finding (`MalformedReportLineError`). The index is the line's
position in the report, counted from 1. -/
inductive Fault where
  /-- The line has fewer fields than path, line, severity and code. -/
  | missingFields (index found : Nat) (raw : String)
  /-- The second field is no line number. -/
  | invalidLineNumber (index : Nat) (value raw : String)
  deriving DecidableEq, Repr

namespace Fault

/-- The position of the line in the report. -/
def index : Fault → Nat
  | missingFields index _ _ => index
  | invalidLineNumber index _ _ => index

/-- The text of a fault. -/
def message : Fault → String
  | missingFields index found raw =>
    "report line " ++ Decimal.text index ++ ": expected at least 4 ':'-separated fields, got " ++
      Decimal.text found ++ ": " ++ Text.quoted raw
  | invalidLineNumber index value raw =>
    "report line " ++ Decimal.text index ++ ": invalid line number " ++ Text.quoted value ++
      ": " ++ Text.quoted raw

end Fault

/-- The fewest fields of a line (`MIN_FIELDS`): path, line, severity and code. -/
def leastFields : Nat := 4

/-- What a report line says (`ParsedLine`): a finding and the file it is about. -/
structure Line where
  /-- The path of the file, relative to the project. -/
  path : String
  finding : Finding
  deriving DecidableEq, Repr

/-- A path as findings are filed under it (`normalize_report_path`): without one leading `./`. -/
def normalPath : List Char → List Char
  | '.' :: '/' :: rest => rest
  | path => path

/-- Whether `part` occurs in a text. -/
def occurs (part : List Char) : List Char → Bool
  | [] => part.isEmpty
  | c :: rest => part.isPrefixOf (c :: rest) || occurs part rest

/-- Whether a path lies below a directory named `tests` (`is_test_path`). -/
def isTestPath (path : List Char) : Bool :=
  "tests/".toList.isPrefixOf path || occurs "/tests/".toList path

/-- The 0-based line that a line field names, if it names one: a numeral from 1 to 2^32 - 1,
which may have a plus sign. -/
def lineNumber? (field : List Char) : Option UInt32 :=
  match Decimal.signedValue? (Text.trim field) with
  | some n => if 1 ≤ n ∧ n < Nat.pow 2 32 then some (UInt32.ofNat (n - 1)) else none
  | none => none

/-- Severity and code: the first two fields of a message, trimmed. -/
def heading (message : List Char) : Severity × String :=
  match Text.fields ':' message with
  | severity :: code :: _ =>
    (Severity.ofText (String.ofList (Text.trim severity)), String.ofList (Text.trim code))
  | [severity] => (Severity.ofText (String.ofList (Text.trim severity)), "")
  | [] => (Severity.ofText "", "")

/-- The finding of a line number and a message. -/
def findingOf (line : UInt32) (message : List Char) : Finding :=
  ⟨line, (heading message).1, (heading message).2, String.ofList message⟩

/-- Reads the line at position `index` of a report (`ReportParser::parse_line`). -/
def Line.read (index : Nat) (raw : String) : Except Fault Line :=
  match Text.fields ':' raw.toList with
  | path :: number :: severity :: code :: rest =>
    match lineNumber? number with
    | some line =>
      let message := Text.trim (Text.joinFields ':' (severity :: code :: rest))
      .ok ⟨String.ofList (normalPath path), findingOf line message⟩
    | none => .error (.invalidLineNumber index (String.ofList number) raw)
  | few => .error (.missingFields index few.length raw)

end StyleMonitor.Report
