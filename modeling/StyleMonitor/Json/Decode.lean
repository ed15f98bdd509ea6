import StyleMonitor.Json.Node

/-!
Decoding: taking a JSON value as a value of a certain kind. Faults are met in the order of the
text. A record may be written as an object, whose unknown members are skipped and whose known
members may come once only, or as the array of its fields.
-/

namespace StyleMonitor.Json

/-- A way to take a JSON value as a value of one kind. -/
abbrev Decoder (α : Type) := Node → Except Fault α

namespace Number

/-- One more than the largest 64-bit number. -/
def limit64 : Nat := Nat.pow 2 64

/-- Whether a number is too large for a floating-point number of 64 bits, when it has to be
held as one. -/
def overflows (n : Number) : Bool :=
  if n.whole ∧ n.digits < limit64 ∧ (n.negative → n.digits ≤ Nat.pow 2 63) then false
  else Decimal.overflows n.digits n.scale

/-- The value of a number that is written as a natural number below `limit`. Minus zero is no
natural number. -/
def natBelow? (limit : Nat) (n : Number) : Option Nat :=
  if n.whole ∧ ¬ n.negative ∧ n.digits < limit then some n.digits else none

end Number

namespace Node

/-- The fault of a node that is not of the kind expected. What is broken inside an array or an
object is not looked at. -/
def unexpected : Node → Fault
  | broken gap => gap.wanted
  | string (.error fault) => fault
  | number n => if n.overflows then .malformed else .mismatch
  | _ => .mismatch

mutual

/-- Skips a value, which has to be JSON and nothing more. -/
def skip : Node → Except Fault Unit
  | broken gap => .error gap.skipped
  | array items ending => do
    skipAll items
    skipEnding ending
  | object members ending => do
    skipMembers members
    skipEnding ending
  | _ => .ok ()

/-- Skips the items of an array. -/
def skipAll : List Node → Except Fault Unit
  | [] => .ok ()
  | node :: rest => do
    skip node
    skipAll rest

/-- Skips the members of an object. -/
def skipMembers : List (Except Fault String × Node) → Except Fault Unit
  | [] => .ok ()
  | (_, node) :: rest => do
    skip node
    skipMembers rest

/-- Skips the end of a list. -/
def skipEnding : Ending → Except Fault Unit
  | .closed => .ok ()
  | .stopped gap _ => .error gap.skipped

end

/-- A string. -/
def asString : Decoder String
  | string (.ok content) => .ok content
  | node => .error node.unexpected

/-- A truth value. -/
def asBool : Decoder Bool
  | bool value => .ok value
  | node => .error node.unexpected

/-- A natural number below `limit`. -/
def asNatBelow (limit : Nat) : Decoder Nat
  | number n =>
    match n.natBelow? limit with
    | some value => .ok value
    | none => .error (number n).unexpected
  | node => .error node.unexpected

/-- The end of a list that is expected to end. -/
def finish : Ending → Except Fault Unit
  | .closed => .ok ()
  | .stopped gap _ => .error gap.wanted

/-- An array of values of one kind. -/
def asList {α : Type} (item : Decoder α) : Decoder (List α)
  | array items ending => do
    let values ← items.mapM item
    finish ending
    return values
  | node => .error node.unexpected

/-- The members of an object, whose values are of one kind, in order. -/
def asMembers {α : Type} (value : Decoder α) : Decoder (List (String × α))
  | object members ending => do
    let pairs ← members.mapM fun (key, node) => do
      let key ← key
      let value ← value node
      return (key, value)
    finish ending
    return pairs
  | node => .error node.unexpected

end Node

/-- A field of a record: its name, and how its value changes the record. -/
structure Field (ρ : Type) where
  name : String
  set : ρ → Node → Except Fault ρ

namespace Field

/-- A field with a decoder for its value. -/
def of {ρ α : Type} (name : String) (decoder : Decoder α) (put : ρ → α → ρ) : Field ρ :=
  ⟨name, fun record node => (decoder node).map (put record)⟩

end Field

section Record
variable {ρ : Type}

/-- Takes the members of an object into a record. `seen` are the fields that came before. -/
def takeMembers (fields : List (Field ρ)) :
    List (Except Fault String × Node) → List String → ρ → Except Fault ρ
  | [], _, record => .ok record
  | (key, node) :: rest, seen, record => do
    let key ← key
    match fields.find? (·.name == key) with
    | none => do
      node.skip
      takeMembers fields rest seen record
    | some field =>
      if key ∈ seen then .error .mismatch
      else do
        let record ← field.set record node
        takeMembers fields rest (key :: seen) record

/-- Takes the items of an array into a record, field by field. An array with more items than
there are fields is malformed. -/
def takeItems : List (Field ρ) → List Node → Ending → ρ → Except Fault ρ
  | [], _ :: _, _, _ => .error .malformed
  | [], [], .stopped _ true, _ => .error .malformed
  | [], [], ending, record => (Node.finish ending).map fun _ => record
  | _ :: _, [], ending, record => (Node.finish ending).map fun _ => record
  | field :: fields, node :: rest, ending, record => do
    let record ← field.set record node
    takeItems fields rest ending record

/-- A record whose fields start out as in `start`. -/
def asRecord (fields : List (Field ρ)) (start : ρ) : Decoder ρ
  | .object members ending => do
    let record ← takeMembers fields members [] start
    Node.finish ending
    return record
  | .array items ending => takeItems fields items ending start
  | node => .error node.unexpected

end Record

/-- A text as a value of one kind, with nothing but blanks after it. -/
def decode {α : Type} (decoder : Decoder α) (text : String) : Except Fault α :=
  let (node, more) := ofText text
  match decoder node with
  | .error fault => .error fault
  | .ok value => if more then .error .malformed else .ok value

end StyleMonitor.Json
