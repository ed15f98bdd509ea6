import StyleMonitor.Proofs.Decimal
import StyleMonitor.Proofs.Report.Listing

/-!
# The grammar of report lines

A line has the form `path:number:severity:code`, with or without a colon and free text behind it.
It holds a finding if its number is a line number, and then what is read of it is what its parts
say. A finding that was read can be written as a line again, from which it is read as it is.
-/

namespace StyleMonitor

namespace Decimal

theorem isBlank_of_isDigit {c : Char} (digit : isDigit c = true) : Text.isBlank c = false := by
  obtain ⟨low, high⟩ := isDigit_iff.mp digit
  have low : 48 ≤ c.toNat := low
  have high : c.toNat ≤ 57 := high
  simp only [Text.isBlank, Bool.or_eq_false_iff, Bool.and_eq_false_iff, decide_eq_false_iff_not,
    beq_eq_false_iff_ne]
  omega

end Decimal

namespace Report

/-- The parts of a line that has all four fields. -/
structure Parts where
  path : List Char
  number : List Char
  severity : List Char
  code : List Char
  /-- What stands behind the code. -/
  more : List Char

namespace Parts

variable {parts : Parts} {raw : String} {index : Nat} {line : UInt32}

/-- What stands behind the second colon. -/
def remark (parts : Parts) : List Char :=
  parts.severity ++ ':' :: (parts.code ++ parts.more)

/-- The line of these parts. -/
def text (parts : Parts) : List Char :=
  parts.path ++ ':' :: (parts.number ++ ':' :: parts.remark)

/-- Each part ends at the first colon after it, but for the free text, which goes on to the end of
the line. -/
structure Apart (parts : Parts) : Prop where
  path : ':' ∉ parts.path
  number : ':' ∉ parts.number
  severity : ':' ∉ parts.severity
  code : ':' ∉ parts.code
  more : parts.more = [] ∨ ∃ free, parts.more = ':' :: free

/-- What a line of these parts says, at a line counted from 0. -/
def said (parts : Parts) (line : UInt32) : Line where
  path := String.ofList (normalPath parts.path)
  finding := {
    line := line
    severity := Severity.ofText (String.ofList (Text.trim parts.severity))
    code := String.ofList (Text.trim parts.code)
    message := String.ofList (Text.trim parts.remark) }

theorem Apart.fields_remark (apart : parts.Apart) : ∃ rest,
    Text.fields ':' parts.remark = parts.severity :: parts.code :: rest := by
  rw [remark, Text.fields_append_sep, Text.fields_of_not_mem apart.severity]
  rcases apart.more with none | ⟨free, some⟩
  · exact ⟨[], by rw [none, List.append_nil, Text.fields_of_not_mem apart.code]; rfl⟩
  · refine ⟨Text.fields ':' free, ?_⟩
    rw [some, Text.fields_append_sep, Text.fields_of_not_mem apart.code]
    rfl

theorem Apart.fields_text (apart : parts.Apart) :
    Text.fields ':' parts.text = parts.path :: parts.number :: Text.fields ':' parts.remark := by
  rw [text, Text.fields_append_sep, Text.fields_append_sep, Text.fields_of_not_mem apart.path,
    Text.fields_of_not_mem apart.number]
  rfl

/-- A line of at least three colons has all four fields. -/
theorem exists_of_count {s : List Char} (many : 3 ≤ s.count ':') :
    ∃ parts : Parts, parts.Apart ∧ parts.text = s := by
  have length := Text.length_fields ':' s
  have join := Text.joinFields_fields ':' s
  have none : ∀ piece ∈ Text.fields ':' s, ':' ∉ piece := fun _ => Text.not_mem_of_mem_fields
  generalize Text.fields ':' s = fields at length join none
  match fields with
  | [] | [_] | [_, _] | [_, _, _] =>
    simp only [List.length_cons, List.length_nil] at length
    omega
  | path :: number :: severity :: code :: rest =>
    refine ⟨⟨path, number, severity, code,
      if rest = [] then [] else ':' :: Text.joinFields ':' rest⟩,
      ⟨none path (by simp), none number (by simp), none severity (by simp),
        none code (by simp), ?_⟩, ?_⟩
    · by_cases last : rest = []
      · exact Or.inl (by simp [last])
      · exact Or.inr ⟨Text.joinFields ':' rest, by simp [last]⟩
    · rw [← join]
      cases rest with
      | nil => simp [text, remark, Text.joinFields_cons_cons, Text.joinFields_singleton]
      | cons free rest => simp [text, remark, Text.joinFields_cons_cons]

end Parts

variable {index : Nat} {raw : String} {line : UInt32} {field : List Char}

/-- A field names a line if it is a numeral from 1 to 2^32 - 1 between blanks. -/
theorem lineNumber?_eq_some_iff : lineNumber? field = some line ↔
    ∃ n, Decimal.Signed (Text.trim field) n ∧ n < 2 ^ 32 ∧ line.toNat + 1 = n := by
  constructor
  · intro named
    obtain ⟨n, value, -, small, counted⟩ := lineNumber?_eq named
    exact ⟨n, Decimal.signedValue?_eq_some_iff.mp value, small, counted⟩
  · rintro ⟨n, signed, small, rfl⟩
    have bounds : 1 ≤ line.toNat + 1 ∧ line.toNat + 1 < Nat.pow 2 32 := ⟨by omega, small⟩
    rw [lineNumber?, Decimal.signedValue?_eq_some_iff.mpr signed]
    simp only [if_pos bounds, Nat.add_sub_cancel, UInt32.ofNat_toNat]

theorem read_of_fields {path number severity code : List Char} {rest : List (List Char)}
    (fields : Text.fields ':' raw.toList = path :: number :: severity :: code :: rest) :
    Line.read index raw = match lineNumber? number with
      | some line => .ok ⟨String.ofList (normalPath path),
          findingOf line (Text.trim (Text.joinFields ':' (severity :: code :: rest)))⟩
      | none => .error (.invalidLineNumber index (String.ofList number) raw) := by
  cases number : lineNumber? number with
  | none => simp only [Line.read, fields, number]
  | some line => simp only [Line.read, fields, number]

/-- The severity and the code that a trimmed message names are those of the parts. -/
theorem Parts.Apart.findingOf_remark {parts : Parts} (apart : parts.Apart) (line : UInt32) :
    findingOf line (Text.trim parts.remark) = (parts.said line).finding := by
  obtain ⟨rest, fields⟩ := apart.fields_remark
  have join := Text.joinFields_fields ':' parts.remark
  have names := heading_joinFields fun piece member =>
    Text.not_mem_of_mem_fields (fields ▸ member)
  rw [fields] at join
  rw [join] at names
  rw [findingOf, names]
  rfl

/-- What a line of four fields comes to. -/
theorem Parts.Apart.read {parts : Parts} (apart : parts.Apart) (same : parts.text = raw.toList) :
    Line.read index raw = match lineNumber? parts.number with
      | some line => .ok (parts.said line)
      | none => .error (.invalidLineNumber index (String.ofList parts.number) raw) := by
  obtain ⟨rest, fields⟩ := apart.fields_remark
  have join := Text.joinFields_fields ':' parts.remark
  have all := apart.fields_text
  rw [same, fields] at all
  rw [fields] at join
  rw [read_of_fields all, join]
  simp only [apart.findingOf_remark]
  rfl

/-- What a line comes to, by the grammar of lines. -/
inductive Comes (index : Nat) (raw : String) : Except Fault Line → Prop where
  | missing : raw.toList.count ':' < 3 →
    Comes index raw (.error (.missingFields index (raw.toList.count ':' + 1) raw))
  | unnumbered (parts : Parts) : parts.Apart → parts.text = raw.toList →
    (∀ n, Decimal.Signed (Text.trim parts.number) n → ¬ (1 ≤ n ∧ n < 2 ^ 32)) →
    Comes index raw (.error (.invalidLineNumber index (String.ofList parts.number) raw))
  | finding (parts : Parts) (n : Nat) (line : UInt32) : parts.Apart → parts.text = raw.toList →
    Decimal.Signed (Text.trim parts.number) n → n < 2 ^ 32 → line.toNat + 1 = n →
    Comes index raw (.ok (parts.said line))

theorem Comes.read_eq {result : Except Fault Line} (comes : Comes index raw result) :
    Line.read index raw = result := by
  cases comes with
  | missing few =>
    have length := Text.length_fields ':' raw.toList
    rw [Line.read]
    split
    · next fields =>
      rw [fields] at length
      simp at length
      omega
    · rw [length]
  | unnumbered parts apart same no =>
    have none : lineNumber? parts.number = none := by
      rw [Option.eq_none_iff_forall_ne_some]
      intro line named
      obtain ⟨n, signed, small, counted⟩ := lineNumber?_eq_some_iff.mp named
      exact no n signed ⟨by omega, small⟩
    rw [apart.read same, none]
  | finding parts n line apart same signed small counted =>
    rw [apart.read same, lineNumber?_eq_some_iff.mpr ⟨n, signed, small, counted⟩]

theorem comes_read (index : Nat) (raw : String) : Comes index raw (Line.read index raw) := by
  by_cases few : raw.toList.count ':' < 3
  · exact (Comes.missing few).read_eq ▸ .missing few
  · obtain ⟨parts, apart, same⟩ := Parts.exists_of_count (Nat.le_of_not_lt few)
    rw [apart.read same]
    split
    · next line named =>
      obtain ⟨n, signed, small, counted⟩ := lineNumber?_eq_some_iff.mp named
      exact .finding parts n line apart same signed small counted
    · next none =>
      refine .unnumbered parts apart same fun n signed ⟨positive, small⟩ => ?_
      have counted : (UInt32.ofNat (n - 1)).toNat + 1 = n := by
        rw [UInt32.toNat_ofNat_of_lt' (by simp only [UInt32.size]; omega)]
        omega
      rw [lineNumber?_eq_some_iff.mpr ⟨n, signed, small, counted⟩] at none
      cases none

/-- What was read of a line, as a line. -/
def Line.written (line : Line) : String :=
  line.path ++ ":" ++ Decimal.text (line.finding.line.toNat + 1) ++ ":" ++ line.finding.message

theorem normalPath_of_plain {path : List Char} (plain : ¬ "./".toList <+: path) :
    normalPath path = path := by
  unfold normalPath
  split
  · next rest => exact absurd ⟨rest, rfl⟩ plain
  · rfl

theorem not_mem_normalPath {c : Char} {path : List Char} (none : c ∉ path) :
    c ∉ normalPath path := by
  unfold normalPath
  split
  · exact fun member => none (List.mem_cons_of_mem _ (List.mem_cons_of_mem _ member))
  · exact none

/-- A numeral that was written is read as the number it was written for. -/
theorem lineNumber?_text (small : line.toNat + 1 < 2 ^ 32) :
    lineNumber? (Decimal.text (line.toNat + 1)).toList = some line := by
  refine lineNumber?_eq_some_iff.mpr ⟨line.toNat + 1, ?_, small, rfl⟩
  rw [Text.trim_of_solid fun c member =>
    Decimal.isBlank_of_isDigit (Decimal.isDigit_of_mem_text member)]
  exact Decimal.signed_text (line.toNat + 1)

/-- What was read of a line, with a path that is not stripped any further, is read again from the
line that it is written as. -/
theorem Line.read_written {said : Line} (read : Line.read index raw = .ok said)
    (plain : ¬ "./".toList <+: said.path.toList) (position : Nat) :
    Line.read position said.written = .ok said := by
  have comes := comes_read index raw
  rw [read] at comes
  cases comes with
  | finding parts n line apart same signed small counted =>
    subst counted
    -- Trimming the message takes no colon away, so its first two fields are still there.
    obtain ⟨rest, fields⟩ := apart.fields_remark
    obtain ⟨severity, code, more, trimmed, -, -⟩ := Text.fields_trim_joinFields
      (show Text.isBlank ':' = false by decide) fun piece member => Text.not_mem_of_mem_fields (fields ▸ member)
    rw [← fields, Text.joinFields_fields] at trimmed
    have join := Text.joinFields_fields ':' (Text.trim parts.remark)
    rw [trimmed] at join
    have path : ':' ∉ normalPath parts.path := not_mem_normalPath apart.path
    have number : ':' ∉ (Decimal.text (line.toNat + 1)).toList := fun member =>
      absurd (Decimal.isDigit_of_mem_text member) (by decide)
    have again : normalPath (normalPath parts.path) = normalPath parts.path :=
      normalPath_of_plain (by simpa [Parts.said] using plain)
    have written : Text.fields ':' (parts.said line).written.toList =
        normalPath parts.path :: (Decimal.text (line.toNat + 1)).toList :: severity :: code ::
          more := by
      have text : (parts.said line).written.toList = normalPath parts.path ++
          ':' :: ((Decimal.text (line.toNat + 1)).toList ++ ':' :: Text.trim parts.remark) := by
        simp [Line.written, Parts.said]
      rw [text, Text.fields_append_sep, Text.fields_append_sep, Text.fields_of_not_mem path,
        Text.fields_of_not_mem number, trimmed]
      rfl
    rw [read_of_fields written, lineNumber?_text small, join, again, Text.trim_trim]
    simp only [apart.findingOf_remark]
    rfl

/-- A line comes to what the grammar of lines says of it, and to nothing else. What was read of a
line can be written as a line and read again. -/
theorem read_eq_iff_comes (index : Nat) (raw : String) :
    (∀ result, Line.read index raw = result ↔ Comes index raw result) ∧
    ∀ said, Line.read index raw = .ok said → ¬ "./".toList <+: said.path.toList →
      ∀ position, Line.read position said.written = .ok said := by
  refine ⟨fun result => ⟨?_, Comes.read_eq⟩, fun said read plain position =>
    Line.read_written read plain position⟩
  rintro rfl
  exact comes_read index raw

/-- What a line with blanks around its fields and colons in its free text says. -/
def spacious : Line where
  path := "src/a.c"
  finding := ⟨6, .major, "C-F3", "MAJOR :\tC-F3 : x:y"⟩

theorem read_eq_iff_comes_spacious :
    Line.read 1 "src/a.c: +007\u3000: MAJOR :\tC-F3 : x:y " = .ok spacious ∧
    ¬ "./".toList <+: spacious.path.toList ∧
    spacious.written = "src/a.c:7:MAJOR :\tC-F3 : x:y" ∧
    Line.read 9 spacious.written = .ok spacious := by
  have read : Line.read 1 "src/a.c: +007\u3000: MAJOR :\tC-F3 : x:y " = .ok spacious := by
    decide +kernel
  have plain : ¬ "./".toList <+: spacious.path.toList := by decide
  exact ⟨read, plain, by decide +kernel, (read_eq_iff_comes 1 _).2 spacious read plain 9⟩

end Report

end StyleMonitor
