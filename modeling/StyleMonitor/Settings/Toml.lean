import StyleMonitor.Settings
import StyleMonitor.Toml.Document

/-!
Settings in TOML. Settings that are not known are skipped, and those that are not written keep
their defaults. A table may also be written as the array of its settings, in order.
-/

namespace StyleMonitor

namespace Toml.Value

mutual

/-- Whether a value that nobody asks for is let pass: its numbers have to fit into 128 and into
64 bits. -/
def isSkippable : Value → Bool
  | .scalar (.integer n) => -(Int.pow 2 127) ≤ n && n < Int.pow 2 128
  | .scalar (.float overflows) => !overflows
  | .scalar _ => true
  | .array items => areSkippable items
  | .table members => membersAreSkippable members

/-- Whether all values of a list are let pass. -/
def areSkippable : List Value → Bool
  | [] => true
  | value :: rest => value.isSkippable && areSkippable rest

/-- Whether all values of a table are let pass. -/
def membersAreSkippable : List (String × Value) → Bool
  | [] => true
  | (_, value) :: rest => value.isSkippable && membersAreSkippable rest

end

/-- A truth value. -/
def asBool : Value → Option Bool
  | .scalar (.boolean value) => some value
  | _ => none

/-- A natural number of 64 bits. -/
def asNat : Value → Option Nat
  | .scalar (.integer n) => if 0 ≤ n ∧ n < Int.pow 2 64 then some n.toNat else none
  | _ => none

/-- A string. -/
def asString : Value → Option String
  | .scalar (.string content) => some content
  | _ => none

/-- An array of strings. -/
def asStrings : Value → Option (List String)
  | .array items => items.mapM asString
  | _ => none

section Record
variable {ρ : Type}

/-- Takes the members of a table into a record. Each field has a name and tells how its value
changes the record. -/
def takeMembers (fields : List (String × (ρ → Value → Option ρ))) :
    List (String × Value) → ρ → Option ρ
  | [], record => some record
  | (name, value) :: rest, record =>
    match fields.lookup name with
    | some put => (put record value).bind (takeMembers fields rest)
    | none => if value.isSkippable then takeMembers fields rest record else none

/-- Takes the items of an array into a record, field by field. Items without a field are not
looked at. -/
def takeItems : List (String × (ρ → Value → Option ρ)) → List Value → ρ → Option ρ
  | (_, put) :: fields, value :: rest, record => (put record value).bind (takeItems fields rest)
  | _, _, record => some record

/-- A record whose fields start out as in `start`. A date or time is a record with nothing in it
that is asked for. -/
def asRecord (fields : List (String × (ρ → Value → Option ρ))) (start : ρ) : Value → Option ρ
  | .table members => takeMembers fields members start
  | .array items => takeItems fields items start
  | .scalar .moment => some start
  | _ => none

end Record

end Toml.Value

/-- How a written value of a setting changes its table. -/
def Setting.put {τ : Type} (table : τ) (value : Toml.Value) : Setting τ → Option τ
  | bool put => value.asBool.map (put table)
  | nat put => value.asNat.map (put table)
  | string put => value.asString.map (put table)
  | strings put => value.asStrings.map (put table)

/-- A table of settings. -/
def Setting.readTable {τ : Type} (settings : List (String × Setting τ)) (start : τ)
    (value : Toml.Value) : Option τ :=
  value.asRecord (settings.map fun (name, setting) =>
    (name, fun table value => setting.put table value)) start

namespace Settings

/-- Settings from what a TOML document means. -/
def ofToml? (value : Toml.Value) : Option Settings :=
  value.asRecord [
    ("analysis", fun settings value =>
      (Setting.readTable AnalysisSettings.table {} value).map fun analysis =>
        { settings with analysis }),
    ("runner", fun settings value =>
      (Setting.readTable RunnerSettings.table {} value).map fun runner =>
        { settings with runner }),
    ("report", fun settings value =>
      (Setting.readTable ReportSettings.table {} value).map fun report =>
        { settings with report })] {}

/-- Settings from a text. -/
def ofText? (text : String) : Option Settings :=
  (Toml.Document.ofText? text).bind fun document => ofToml? document.value

end Settings

end StyleMonitor
