import StyleMonitor.Text.Bytes

/-!
# Which bytes a text takes

A text is the only one with its bytes, and is what is shown of them. A character below 128 takes one
byte, which is its number, and the bytes of all others are 128 or more, so a line feed or a slash is
never a part of another character.
-/

namespace StyleMonitor.Text

theorem encode_eq (s : String) : encode s = s.toList.flatMap String.utf8EncodeChar := by
  rw [encode, String.toUTF8, ← String.utf8Encode_toList]
  simp [List.utf8Encode]

@[simp] theorem encode_empty : encode "" = [] := by
  simp [encode_eq]

theorem encode_append (s t : String) : encode (s ++ t) = encode s ++ encode t := by
  simp [encode_eq]

/-- Bytes are a text exactly when they are the bytes of that text. -/
theorem decode?_eq_some_iff {bytes : Bytes} {s : String} :
    decode? bytes = some s ↔ bytes = encode s := by
  constructor
  · intro decodes
    rw [decode?, String.fromUTF8?] at decodes
    split at decodes
    · cases decodes
      simp [encode, String.fromUTF8]
    · cases decodes
  · intro same
    rw [same, decode?_encode]

/-! ### What is shown of bytes -/

theorem firstChar?_encodeChar (c : Char) (rest : Bytes) :
    firstChar? (String.utf8EncodeChar c ++ rest) = some c := by
  have short : (String.utf8EncodeChar c).length ≤ 4 := by
    rw [String.length_utf8EncodeChar]
    exact c.utf8Size_le_four
  rw [firstChar?, List.take_append, List.take_of_length_le short, List.toByteArray_append,
    ByteArray.utf8DecodeChar?_utf8EncodeChar_append]

theorem lossyChars_skip (piece rest : Bytes) :
    lossyChars piece.length (piece ++ rest) = lossyChars 0 rest := by
  induction piece with
  | nil => rfl
  | cons byte piece ih => rw [List.length_cons, List.cons_append, lossyChars, ih]

theorem lossyChars_encodeChar (s : List Char) :
    lossyChars 0 (s.flatMap String.utf8EncodeChar) = s := by
  induction s with
  | nil => rfl
  | cons c s ih =>
    have first := firstChar?_encodeChar c (s.flatMap String.utf8EncodeChar)
    have size := String.length_utf8EncodeChar c
    rw [List.flatMap_cons]
    cases bytes : String.utf8EncodeChar c with
    | nil =>
      rw [bytes] at size
      exact absurd size (Nat.ne_of_lt c.utf8Size_pos)
    | cons byte piece =>
      rw [bytes, List.length_cons] at size
      rw [bytes, List.cons_append] at first
      rw [List.cons_append, lossyChars, first]
      dsimp only
      rw [← size, Nat.add_sub_cancel, lossyChars_skip, ih]

/-- A text is shown as it is. -/
theorem lossy_encode (s : String) : lossy (encode s) = s := by
  rw [lossy, encode_eq, lossyChars_encodeChar, String.ofList_toList]

/-- What is shown of bytes has these bytes just if they are a text. -/
theorem encode_lossy_iff {bytes : Bytes} :
    encode (lossy bytes) = bytes ↔ (decode? bytes).isSome = true := by
  rw [Option.isSome_iff_exists]
  constructor
  · exact fun same => ⟨lossy bytes, decode?_eq_some_iff.mpr same.symm⟩
  · rintro ⟨s, decodes⟩
    rw [decode?_eq_some_iff.mp decodes, lossy_encode]

-- One mark stands for as many bytes as could begin a character, and for one at least.
example : [[0xC2, 0x20, 0xC0, 0x80, 0x41], [0xE6, 0x83, 0x41], [0xF1, 0x80, 0x80, 0x41],
    [0xF4, 0xBF, 0x41], [0xED, 0xA0, 0x80], [0xF0, 0x90, 0x80, 0x80]].map lossy =
  ["\uFFFD \uFFFD\uFFFDA", "\uFFFDA", "\uFFFDA", "\uFFFD\uFFFDA", "\uFFFD\uFFFD\uFFFD",
    String.singleton (Char.ofNat 0x10000)] := by decide +kernel

/-! ### Bytes that stand for themselves -/

/-- A byte below 128 stands for a character by itself. -/
theorem toNat_of_mem_encodeChar {c : Char} {b : UInt8} (member : b ∈ String.utf8EncodeChar c)
    (small : b < 128) : c.toNat = b.toNat := by
  have bound : b.toNat < 128 := small
  change c.val.toNat = b.toNat
  simp only [String.utf8EncodeChar] at member
  generalize c.val.toNat = v at *
  -- Only the first form has bytes below 128.
  split at member
  · obtain rfl := List.mem_singleton.mp member
    simp only [UInt8.toNat_ofNat'] at bound ⊢
    omega
  · exfalso
    split at member
    · simp only [List.mem_cons, List.not_mem_nil, or_false] at member
      rcases member with rfl | rfl <;> simp only [UInt8.toNat_ofNat'] at bound <;> omega
    split at member
    · simp only [List.mem_cons, List.not_mem_nil, or_false] at member
      rcases member with rfl | rfl | rfl <;> simp only [UInt8.toNat_ofNat'] at bound <;> omega
    · simp only [List.mem_cons, List.not_mem_nil, or_false] at member
      rcases member with rfl | rfl | rfl | rfl <;>
        simp only [UInt8.toNat_ofNat'] at bound <;> omega

theorem eq_newline_of_mem {c : Char} (member : 10 ∈ String.utf8EncodeChar c) : c = '\n' :=
  Char.ext (UInt32.toNat_inj.mp (toNat_of_mem_encodeChar member (by decide)))

theorem eq_slash_of_mem {c : Char} (member : 0x2F ∈ String.utf8EncodeChar c) : c = '/' :=
  Char.ext (UInt32.toNat_inj.mp (toNat_of_mem_encodeChar member (by decide)))

theorem eq_return_of_mem {c : Char} (member : 13 ∈ String.utf8EncodeChar c) : c = '\r' :=
  Char.ext (UInt32.toNat_inj.mp (toNat_of_mem_encodeChar member (by decide)))

end StyleMonitor.Text
