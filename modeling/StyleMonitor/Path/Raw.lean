import StyleMonitor.Text.Bytes
import StyleMonitor.Text.Fields

/-!
Paths as the system has them: bytes, of which not all need to make up a text. They are made absolute
and shown; where a path is a text, this comes to the same as with the text.
-/

namespace StyleMonitor

/-- A path as the system has it. -/
abbrev RawPath := Bytes

namespace RawPath

def slash : UInt8 := 0x2F

def dot : UInt8 := 0x2E

/-- Whether a path starts with a slash. -/
def isAbsolute (path : RawPath) : Bool :=
  path.head? == some slash

/-- Whether a path ends in a slash. -/
def endsInSlash (path : RawPath) : Bool :=
  path.getLast? == some slash

/-- The pieces of a path between its slashes that lead somewhere, `..` among them. -/
def steps (path : RawPath) : List RawPath :=
  (Text.fields slash path).filter fun piece => piece ≠ [] ∧ piece ≠ [dot]

/-- A path with a piece behind it that has no slash. -/
def push (base piece : RawPath) : RawPath :=
  if base = [] ∨ endsInSlash base then base ++ piece else base ++ slash :: piece

/-- A path made absolute (`std::path::absolute`) from the directory `current`, if there is one to be
had. -/
def absolute? (current : Option RawPath) (path : RawPath) : Option RawPath :=
  if path = [] then none
  else
    let start? :=
      if isAbsolute path then
        some (if [slash, slash].isPrefixOf path ∧ ¬ [slash, slash, slash].isPrefixOf path then
          [slash, slash] else [slash])
      else current
    start?.map fun start =>
      let full := (steps path).foldl push start
      if endsInSlash path then push full [] else full

/-- A path made absolute, or left as it is when that fails. -/
def absolute (current : Option RawPath) (path : RawPath) : RawPath :=
  (absolute? current path).getD path

end RawPath

end StyleMonitor
