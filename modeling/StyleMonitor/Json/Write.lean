import StyleMonitor.Decimal
import StyleMonitor.Text.Quoted

/-!
Writing JSON: on one line without blanks, or over lines with two blanks for each level. Only
quotes, backslashes and control characters are escaped; all other characters stand as they are.
-/

namespace StyleMonitor.Json

/-- How a character stands in a string. -/
def writeChar (c : Char) : List Char :=
  if c = '"' then ['\\', '"']
  else if c = '\\' then ['\\', '\\']
  else if c = '\x08' then ['\\', 'b']
  else if c = '\x0c' then ['\\', 'f']
  else if c = '\n' then ['\\', 'n']
  else if c = '\r' then ['\\', 'r']
  else if c = '\t' then ['\\', 't']
  else if c < ' ' then
    ['\\', 'u', '0', '0'] ++ (if c.toNat < 16 then ['0'] else []) ++ Text.hexDigits c.toNat
  else [c]

/-- A text as a string. -/
def writeString (s : String) : String :=
  String.ofList ('"' :: s.toList.flatMap writeChar ++ ['"'])

/-- Written members as an object on one line. -/
def writeObject (members : List (String × String)) : String :=
  "\x7b" ++ String.intercalate "," (members.map fun (key, value) => writeString key ++ ":" ++ value)
    ++ "\x7d"

/-- Written items as an array on one line. -/
def writeArray (items : List String) : String :=
  "[" ++ String.intercalate "," items ++ "]"

/-- Written members as an object with a line for each. -/
def writeObjectLines (members : List (String × String)) : String :=
  if members = [] then "\x7b\x7d"
  else
    "\x7b\n" ++ String.intercalate ",\n" (members.map fun (key, value) =>
      "  " ++ writeString key ++ ": " ++ value) ++ "\n\x7d"

end StyleMonitor.Json
