import Mathlib.Tactic.SplitIfs
import StyleMonitor.Json.Decode
import StyleMonitor.Json.Write
import StyleMonitor.Proofs.Decimal

/-!
# What is written as JSON is read back

A string is read back with all its characters, whatever they are, and the numeral of a natural
number as that number. So an object that was written with a line for each member is read back with
the same members in the same order.
-/

namespace StyleMonitor

namespace Json

/-! ### Strings -/

theorem hexValue?_digitChar : ∀ n < 16, hexValue? (Nat.digitChar n) = some n := by
  decide

theorem utf8Size_digitChar : ∀ n < 16, (Nat.digitChar n).utf8Size = 1 := by
  decide

theorem readUnit_digitChar {high low : Nat} (h : high < 16) (l : low < 16) (rest : List Char) :
    readUnit ('0' :: '0' :: Nat.digitChar high :: Nat.digitChar low :: rest) =
      .ok (high * 16 + low, rest) := by
  have zero : hexValue? '0' = some 0 := rfl
  have size : (('0' :: '0' :: Nat.digitChar high :: Nat.digitChar low :: rest).take 4).foldl
      (fun n (c : Char) => n + c.utf8Size) 0 = 4 := by
    simp [utf8Size_digitChar high h, utf8Size_digitChar low l, show '0'.utf8Size = 1 from rfl]
  rw [readUnit, if_neg (by omega)]
  simp [zero, hexValue?_digitChar high h, hexValue?_digitChar low l]

/-- A control character is written with two hexadecimal digits after two zeros. -/
theorem hexDigits_control : ∀ n < 32, (if n < 16 then ['0'] else []) ++ Text.hexDigits n =
    [Nat.digitChar (n / 16), Nat.digitChar (n % 16)] := by
  decide

theorem readUnit_control {n : Nat} (small : n < 32) (rest : List Char) :
    readUnit ('0' :: '0' :: ((if n < 16 then ['0'] else []) ++ Text.hexDigits n) ++ rest) =
      .ok (n, rest) := by
  rw [hexDigits_control n small]
  have read := readUnit_digitChar (show n / 16 < 16 by omega) (Nat.mod_lt n (by decide)) rest
  rwa [Nat.div_add_mod'] at read

theorem readUnicode_control {n : Nat} (small : n < 32) (rest : List Char) :
    readUnicode ('0' :: '0' :: ((if n < 16 then ['0'] else []) ++ Text.hexDigits n) ++ rest) =
      .ok (Char.ofNat n, rest) := by
  simp only [readUnicode, readUnit_control small]
  rw [if_neg (by omega), if_neg (by omega)]

/-- A character of a string is read back, and a lenient reader goes on where a strict one does. -/
theorem readChar_writeChar (c : Char) (rest : List Char) :
    readChar false (writeChar c ++ rest) = .ok (some c, rest) ∧
      ∃ other, readChar true (writeChar c ++ rest) = .ok (some other, rest) := by
  by_cases special : c ∈ ['"', '\\', '\x08', '\x0c', '\n', '\r', '\t']
  · simp only [List.mem_cons, List.not_mem_nil, or_false] at special
    rcases special with rfl | rfl | rfl | rfl | rfl | rfl | rfl <;> exact ⟨rfl, _, rfl⟩
  simp only [List.mem_cons, List.not_mem_nil, or_false, not_or] at special
  obtain ⟨quote, slash, b, f, n, r, t⟩ := special
  unfold writeChar
  rw [if_neg quote, if_neg slash, if_neg b, if_neg f, if_neg n, if_neg r, if_neg t]
  by_cases control : c < ' '
  · have small : c.toNat < 32 := control
    have wanted := readUnicode_control small rest
    have skipped := readUnit_control small rest
    rw [Char.ofNat_toNat] at wanted
    rw [if_pos control]
    constructor
    · simp only [List.cons_append, List.append_assoc, List.nil_append] at wanted ⊢
      simp [readChar, wanted, Except.map]
    · refine ⟨'?', ?_⟩
      simp only [List.cons_append, List.append_assoc, List.nil_append] at skipped ⊢
      simp [readChar, skipped, Except.map]
  · rw [if_neg control]
    have plain : ∀ lenient, readChar lenient (c :: rest) = .ok (some c, rest) := by
      intro lenient
      unfold readChar
      split
      · cases ‹c :: rest = []›
      · simp_all
      · simp_all
      · simp_all
      · simp_all
      · simp_all
    exact ⟨plain false, c, plain true⟩

theorem readChars_writeChar {s : List Char} {fuel : Nat} (enough : s.length < fuel)
    (rest : List Char) :
    readChars false fuel (s.flatMap writeChar ++ '"' :: rest) = .ok (s, rest) ∧
      ∃ other, readChars true fuel (s.flatMap writeChar ++ '"' :: rest) = .ok (other, rest) := by
  -- A string is read for its text and once more for its end, so both readings go together.
  induction s generalizing fuel with
  | nil =>
    cases fuel with
    | zero => omega
    | succ fuel => exact ⟨rfl, [], rfl⟩
  | cons c s ih =>
    cases fuel with
    | zero => omega
    | succ fuel =>
      obtain ⟨wanted, other, skipped⟩ :=
        ih (Nat.lt_of_succ_lt_succ (by simpa using enough))
      rw [List.flatMap_cons, List.append_assoc]
      obtain ⟨first, mark, lenient⟩ := readChar_writeChar c (s.flatMap writeChar ++ '"' :: rest)
      constructor
      · simp only [readChars, first, wanted]
      · refine ⟨mark :: other, ?_⟩
        simp only [readChars, lenient, skipped]

/-- A string is read back as the text that it was written for. -/
theorem readString_writeChar (s rest : List Char) :
    readString (s.flatMap writeChar ++ '"' :: rest) = .ok (.ok (String.ofList s), rest) := by
  have long : ∀ c, 1 ≤ (writeChar c).length := by
    intro c
    unfold writeChar
    split_ifs <;> simp
  have enough : s.length < (s.flatMap writeChar ++ '"' :: rest).length + 1 := by
    have : s.length ≤ (s.flatMap writeChar).length := by
      induction s with
      | nil => simp
      | cons c s ih =>
        have := long c
        simp only [List.flatMap_cons, List.length_append, List.length_cons]
        omega
    simp only [List.length_append]
    omega
  obtain ⟨wanted, other, skipped⟩ := readChars_writeChar enough rest
  simp only [readString, wanted, skipped, Except.map]

/-! ### Numbers -/

/-- A text that does not go on with the numeral before it. -/
def EndsNumber (rest : List Char) : Prop :=
  ∀ c ∈ rest.head?, Decimal.isDigit c = false ∧ c ≠ '.' ∧ c ≠ 'e' ∧ c ≠ 'E'

theorem endsNumber_nil : EndsNumber [] := by
  simp [EndsNumber]

theorem endsNumber_cons {c : Char} {tail : List Char}
    (other : Decimal.isDigit c = false ∧ c ≠ '.' ∧ c ≠ 'e' ∧ c ≠ 'E') : EndsNumber (c :: tail) := by
  simpa [EndsNumber] using other

/-- The number that a numeral without sign, fraction and exponent is read as. -/
def natural (n : Nat) : Number :=
  ⟨false, n, 0, true⟩

theorem readFraction_of_ends {rest : List Char} (ends : EndsNumber rest) (number : Number) :
    readFraction number rest = .ok (number, rest) := by
  cases rest with
  | nil => rfl
  | cons c tail =>
    obtain ⟨-, point, lower, upper⟩ := ends c rfl
    have first : ∀ more, c :: tail = '.' :: more → False := by
      intro more equal
      exact point (List.cons.inj equal).1
    rw [readFraction.eq_2 _ _ first, readExponent, if_neg (by simp [lower, upper])]

theorem spanDigits_text (n : Nat) {rest : List Char} (ends : EndsNumber rest) :
    spanDigits ((Decimal.text n).toList ++ rest) = ((Decimal.text n).toList, rest) := by
  have digits : ∀ c ∈ (Decimal.text n).toList, Decimal.isDigit c = true :=
    fun c member => Decimal.isDigit_of_mem_text member
  rw [spanDigits, List.takeWhile_append_of_pos digits, List.dropWhile_append_of_pos digits]
  cases rest with
  | nil => simp
  | cons c tail => simp [(ends c rfl).1]

theorem readNumber_text (n : Nat) {rest : List Char} (ends : EndsNumber rest) :
    readNumber false ((Decimal.text n).toList ++ rest) = .ok (natural n, rest) := by
  have span := spanDigits_text n ends
  have value := Decimal.valueFrom_text n
  cases digits : (Decimal.text n).toList with
  | nil => exact absurd digits (Decimal.text_ne_nil n)
  | cons c more =>
    rw [digits] at span value
    by_cases zero : c = '0'
    · subst zero
      obtain rfl := Decimal.eq_zero_of_text digits
      obtain rfl : more = [] := (List.cons.inj digits).2.symm
      have tail : (rest.head?.map Decimal.isDigit).getD false = false := by
        cases rest with
        | nil => rfl
        | cons d tail => exact (ends d rfl).1
      simp only [List.cons_append, List.nil_append, readNumber, tail]
      exact readFraction_of_ends ends _
    · have first : ∀ tail, c :: more ++ rest = '0' :: tail → False := by
        intro tail equal
        exact zero (List.cons.inj equal).1
      rw [readNumber.eq_2 _ _ first, span]
      simp only [value]
      exact readFraction_of_ends ends _

/-- A numeral is read as its number. -/
theorem readNode_text (n fuel : Nat) {rest : List Char} (ends : EndsNumber rest) :
    readNode (fuel + 1) ((Decimal.text n).toList ++ rest) = (.number (natural n), rest) := by
  have read := readNumber_text n ends
  cases digits : (Decimal.text n).toList with
  | nil => exact absurd digits (Decimal.text_ne_nil n)
  | cons c more =>
    rw [digits, List.cons_append] at read
    have digit : Decimal.isDigit c = true := by
      apply Decimal.isDigit_of_mem_text (n := n)
      rw [digits]
      exact List.mem_cons_self
    have other : ∀ d, Decimal.isDigit d = false → c ≠ d := by
      rintro d no rfl
      rw [no] at digit
      cases digit
    have blanks : skipBlanks (c :: more ++ rest) = c :: (more ++ rest) := by
      simp [skipBlanks, other ' ' rfl, other '\n' rfl, other '\t' rfl, other '\r' rfl]
    unfold readNode
    rw [blanks]
    simp [other '"' rfl, other '[' rfl, other '{' rfl, other 'n' rfl, other 't' rfl,
      other 'f' rfl, other '-' rfl, digit, read]

/-! ### Objects over lines -/

/-- A member with a numeral as it stands on its line. -/
def memberLine (member : String × Nat) : List Char :=
  ' ' :: ' ' :: '"' :: (member.1.toList.flatMap writeChar ++
    '"' :: ':' :: ' ' :: (Decimal.text member.2).toList)

/-- The lines of the members after one, and the end of the object. -/
def moreLines : List (String × Nat) → List Char
  | [] => ['\n', '}']
  | member :: rest => ',' :: '\n' :: (memberLine member ++ moreLines rest)

theorem moreLines_endsNumber (members : List (String × Nat)) :
    EndsNumber (moreLines members) := by
  cases members with
  | nil => exact endsNumber_cons (by decide)
  | cons member rest => exact endsNumber_cons (by decide)

theorem toList_memberLine (member : String × Nat) :
    ("  " ++ writeString member.1 ++ ": " ++ Decimal.text member.2).toList = memberLine member := by
  simp [memberLine, writeString]

theorem intercalate_memberLine (first : String × Nat) (rest : List (String × Nat)) :
    List.intercalate [',', '\n'] ((first :: rest).map memberLine) ++ ['\n', '}'] =
      memberLine first ++ moreLines rest := by
  induction rest generalizing first with
  | nil => simp [moreLines]
  | cons second rest ih =>
    rw [List.map_cons, List.map_cons, List.intercalate_cons_cons, List.append_assoc,
      ← List.map_cons, ih second]
    simp [moreLines]

theorem toList_writeObjectLines (first : String × Nat) (rest : List (String × Nat)) :
    (writeObjectLines ((first :: rest).map fun (key, value) => (key, Decimal.text value))).toList =
      '{' :: '\n' :: (memberLine first ++ moreLines rest) := by
  have lines : ((first :: rest).map fun member =>
      ("  " ++ writeString member.1 ++ ": " ++ Decimal.text member.2).toList) =
      (first :: rest).map memberLine :=
    List.map_congr_left fun member _ => toList_memberLine member
  rw [← intercalate_memberLine, ← lines, writeObjectLines, if_neg (by simp)]
  have start : "\x7b\n".toList = ['{', '\n'] := rfl
  have close : "\n\x7d".toList = ['\n', '}'] := rfl
  have comma : ",\n".toList = [',', '\n'] := rfl
  simp only [String.toList_append, String.toList_intercalate, List.map_map, Function.comp_def,
    start, close, comma, List.cons_append, List.nil_append]

/-- A member as it is read. -/
def memberNode (member : String × Nat) : Except Fault String × Node :=
  (.ok member.1, .number (natural member.2))

/-- One member is read, and reading goes on after it. -/
theorem readMembers_memberLine {member : String × Nat} {first : Bool} {fuel : Nat}
    {s rest : List Char} (ends : EndsNumber rest)
    (item : turn '}' first s = .item ((memberLine member ++ rest).drop 2)) :
    readMembers (fuel + 2) first s =
      (memberNode member :: (readMembers (fuel + 1) false rest).1,
        (readMembers (fuel + 1) false rest).2) := by
  obtain ⟨key, value⟩ := member
  have opens : (memberLine (key, value) ++ rest).drop 2 = '"' :: (key.toList.flatMap writeChar ++
      '"' :: ':' :: ' ' :: ((Decimal.text value).toList ++ rest)) := by
    simp [memberLine]
  have string := readString_writeChar key.toList
    (':' :: ' ' :: ((Decimal.text value).toList ++ rest))
  have node : readNode (fuel + 1) (' ' :: ((Decimal.text value).toList ++ rest)) =
      (.number (natural value), rest) := by
    rw [← readNode_text value fuel ends]
    simp [readNode, skipBlanks]
  have colon : skipBlanks (':' :: ' ' :: ((Decimal.text value).toList ++ rest)) =
      ':' :: ' ' :: ((Decimal.text value).toList ++ rest) := rfl
  rw [readMembers, item, opens]
  simp only [string, colon, node, String.ofList_toList, Node.isWhole, if_true, memberNode]

theorem readMembers_moreLines {members : List (String × Nat)} {fuel : Nat}
    (enough : members.length < fuel) :
    readMembers (fuel + 1) false (moreLines members) = (members.map memberNode, .closed, []) := by
  induction members generalizing fuel with
  | nil => rfl
  | cons member rest ih =>
    cases fuel with
    | zero => simp at enough
    | succ fuel =>
      have item : turn '}' false (moreLines (member :: rest)) =
          .item ((memberLine member ++ moreLines rest).drop 2) := rfl
      rw [readMembers_memberLine (moreLines_endsNumber rest) item,
        ih (Nat.lt_of_succ_lt_succ enough)]
      rfl

theorem length_lt_moreLines (members : List (String × Nat)) :
    members.length < (moreLines members).length := by
  induction members with
  | nil => decide
  | cons member rest ih =>
    simp only [moreLines, List.length_cons, List.length_append]
    omega

/-- What is read of each item is read of all of them. -/
theorem mapM_map_eq_ok {α β ε : Type} {write : α → β} {read : β → Except ε α} {items : List α}
    (each : ∀ item ∈ items, read (write item) = .ok item) :
    (items.map write).mapM read = .ok items := by
  induction items with
  | nil => rfl
  | cons item rest ih =>
    rw [List.map_cons, List.mapM_cons, each item List.mem_cons_self,
      ih fun other later => each other (List.mem_cons_of_mem _ later)]
    rfl

/-- A member of an object whose values are of one kind. -/
def memberOf {α : Type} (value : Decoder α) (member : Except Fault String × Node) :
    Except Fault (String × α) := do
  let key ← member.1
  let value ← value member.2
  return (key, value)

theorem asMembers_object {α : Type} (value : Decoder α)
    (members : List (Except Fault String × Node)) (ending : Ending) :
    Node.asMembers value (.object members ending) = do
      let pairs ← members.mapM (memberOf value)
      Node.finish ending
      return pairs :=
  rfl

theorem asMembers_memberNode {limit : Nat} {members : List (String × Nat)}
    (small : ∀ member ∈ members, member.2 < limit) :
    Node.asMembers (Node.asNatBelow limit) (.object (members.map memberNode) .closed) =
      .ok members := by
  have each : ∀ member ∈ members,
      memberOf (Node.asNatBelow limit) (memberNode member) = .ok member := by
    intro member there
    have value : (natural member.2).natBelow? limit = some member.2 := by
      simp [Number.natBelow?, natural, small member there]
    simp only [memberOf, memberNode, Node.asNatBelow, value]
    rfl
  rw [asMembers_object, mapM_map_eq_ok each]
  rfl

/-- An object of numbers below a limit that was written with a line for each member is read back as
it was. -/
theorem decode_writeObjectLines {limit : Nat} {members : List (String × Nat)}
    (small : ∀ member ∈ members, member.2 < limit) :
    decode (Node.asMembers (Node.asNatBelow limit))
      (writeObjectLines (members.map fun (key, value) => (key, Decimal.text value))) =
      .ok members := by
  cases members with
  | nil => rfl
  | cons first rest =>
    have item : turn '}' true ('\n' :: (memberLine first ++ moreLines rest)) =
        .item ((memberLine first ++ moreLines rest).drop 2) := rfl
    have enough : rest.length < (memberLine first ++ moreLines rest).length := by
      have := length_lt_moreLines rest
      rw [List.length_append]
      omega
    have node : ofText (writeObjectLines ((first :: rest).map fun (key, value) =>
        (key, Decimal.text value))) =
        (.object ((first :: rest).map memberNode) .closed, false) := by
      have brace : ∀ body : List Char, skipBlanks ('{' :: body) = '{' :: body := fun _ => rfl
      simp only [ofText, toList_writeObjectLines, List.length_cons]
      rw [readNode, brace]
      simp only [readMembers_memberLine (moreLines_endsNumber rest) item,
        readMembers_moreLines enough]
      rfl
    rw [decode, node]
    simp only [asMembers_memberNode small]
    rfl

end Json

end StyleMonitor
