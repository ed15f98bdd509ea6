/-!
Bytes of a text. Files hold bytes; a text is written as its UTF-8 bytes, and bytes read back as
a text only when they are valid UTF-8. Bytes that are to be shown all the same are shown with a mark
in the place of what is not valid.
-/

namespace StyleMonitor

/-- The content of a file or of an output stream. -/
abbrev Bytes := List UInt8

namespace Text

/-- The UTF-8 bytes of a text. -/
def encode (s : String) : Bytes :=
  s.toUTF8.data.toList

/-- The text that a sequence of bytes encodes, when it is valid UTF-8. -/
def decode? (bytes : Bytes) : Option String :=
  String.fromUTF8? ⟨bytes.toArray⟩

/-- The number of bytes that a text takes. -/
def size (s : String) : Nat :=
  s.utf8ByteSize

/-- The character that some bytes begin with, if they begin with one. -/
def firstChar? (bytes : Bytes) : Option Char :=
  ByteArray.utf8DecodeChar? (bytes.take 4).toByteArray 0

/-- Whether a character of three or four bytes can begin with these two. -/
def opens (first second : UInt8) : Bool :=
  if first = 0xE0 then 0xA0 ≤ second ∧ second ≤ 0xBF
  else if first = 0xED then 0x80 ≤ second ∧ second ≤ 0x9F
  else if first = 0xF0 then 0x90 ≤ second ∧ second ≤ 0xBF
  else if first = 0xF4 then 0x80 ≤ second ∧ second ≤ 0x8F
  else 0xE1 ≤ first ∧ first ≤ 0xF3 ∧ 0x80 ≤ second ∧ second ≤ 0xBF

/-- Where bytes begin with no character, the number of those that one mark stands for: as many as
could begin one, and one at least. -/
def strayLength : Bytes → Nat
  | first :: second :: rest =>
    if opens first second then
      match rest with
      | third :: _ => if 0xF0 ≤ first ∧ 0x80 ≤ third ∧ third ≤ 0xBF then 3 else 2
      | [] => 2
    else 1
  | _ => 1

/-- The characters that are shown of some bytes, from the one on that stands behind `skip` others. -/
def lossyChars : Nat → Bytes → List Char
  | _, [] => []
  | skip + 1, _ :: rest => lossyChars skip rest
  | 0, byte :: rest =>
    match firstChar? (byte :: rest) with
    | some c => c :: lossyChars (c.utf8Size - 1) rest
    | none => '\uFFFD' :: lossyChars (strayLength (byte :: rest) - 1) rest

/-- What is shown of bytes that need not be a text (`Utf8Chunks`): the characters that they encode,
and a mark for each piece that encodes none. -/
def lossy (bytes : Bytes) : String :=
  String.ofList (lossyChars 0 bytes)

/-- What was written as a text reads back as that text. -/
theorem decode?_encode (s : String) : decode? (encode s) = some s := by
  have same : (⟨s.toUTF8.data.toList.toArray⟩ : ByteArray) = s.toUTF8 := by simp
  rw [decode?, encode, same, String.fromUTF8?]
  simp [String.fromUTF8, show s.toByteArray.IsValidUTF8 from s.isValidUTF8]

end Text

end StyleMonitor
