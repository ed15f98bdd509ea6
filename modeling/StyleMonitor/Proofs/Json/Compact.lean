import StyleMonitor.Proofs.Json.RoundTrip

/-!
# Values on one line are read back

A written value is read as its node whatever follows it in an array or an object. Strings and
numerals are such values, and so are an array and an object on one line of such values: this builds
the node of a whole text from the nodes of its parts.
-/

namespace StyleMonitor.Json

/-- A text that is read as this node, with any text after it that does not go on with a number. -/
structure Written (text : List Char) (node : Node) : Prop where
  /-- It starts with what can be the start of an item. -/
  opens : ∃ c more, text = c :: more ∧ c ∉ [' ', '\n', '\t', '\r', ']']
  whole : node.isWhole = true
  /-- A step for each character is fuel enough. -/
  read (fuel : Nat) (rest : List Char) : text.length < fuel → EndsNumber rest →
    readNode fuel (text ++ rest) = (node, rest)

theorem skipBlanks_cons {c : Char} (solid : c ∉ [' ', '\n', '\t', '\r', ']']) (rest : List Char) :
    skipBlanks (c :: rest) = c :: rest := by
  simp only [List.mem_cons, List.not_mem_nil, or_false, not_or] at solid
  simp [skipBlanks, solid]

/-- A text that is a written value is the value. -/
theorem Written.ofText_eq {text : String} {node : Node} (written : Written text.toList node) :
    ofText text = (node, false) := by
  have read := written.read (text.toList.length + 1) [] (Nat.lt_succ_self _) endsNumber_nil
  rw [List.append_nil] at read
  simp only [ofText, read]
  rfl

/-- A text that is this JSON value and nothing more, and is taken as `value`. -/
structure ReadsAs {α : Type} (decoder : Decoder α) (text : String) (node : Node) (value : α) :
    Prop where
  node : ofText text = (node, false)
  value : decode decoder text = .ok value

theorem Written.readsAs {α : Type} {decoder : Decoder α} {text : String} {node : Node} {value : α}
    (written : Written text.toList node) (taken : decoder node = .ok value) :
    ReadsAs decoder text node value where
  node := written.ofText_eq
  value := by
    rw [decode, written.ofText_eq]
    simp only [taken]
    rfl

/-! ### Strings and numerals -/

theorem toList_writeString (s : String) :
    (writeString s).toList = '"' :: (s.toList.flatMap writeChar ++ ['"']) := by
  simp [writeString]

theorem written_writeString (s : String) :
    Written (writeString s).toList (.string (.ok s)) where
  opens := ⟨'"', _, toList_writeString s, by decide⟩
  whole := rfl
  read fuel rest enough _ := by
    cases fuel with
    | zero => omega
    | succ fuel =>
      have string := readString_writeChar s.toList rest
      rw [String.ofList_toList] at string
      have opens : skipBlanks ('"' :: (s.toList.flatMap writeChar ++ '"' :: rest)) =
          '"' :: (s.toList.flatMap writeChar ++ '"' :: rest) := rfl
      rw [toList_writeString, List.cons_append, List.append_assoc, List.singleton_append, readNode,
        opens]
      simp only [string]

theorem written_text (n : Nat) : Written (Decimal.text n).toList (.number (natural n)) where
  opens := by
    cases digits : (Decimal.text n).toList with
    | nil => exact absurd digits (Decimal.text_ne_nil n)
    | cons c more =>
      refine ⟨c, more, rfl, fun member => ?_⟩
      have digit : Decimal.isDigit c = true :=
        Decimal.isDigit_of_mem_text (n := n) (digits ▸ List.mem_cons_self)
      have none : ∀ d ∈ [' ', '\n', '\t', '\r', ']'], Decimal.isDigit d = false := by
        simp only [List.forall_mem_cons]
        exact ⟨rfl, rfl, rfl, rfl, rfl, nofun⟩
      rw [none c member] at digit
      cases digit
  whole := rfl
  read fuel rest enough ends := by
    cases fuel with
    | zero => omega
    | succ fuel => exact readNode_text n fuel ends

/-! ### Lists -/

/-- The written items after one of a list, and the end of the list. -/
def following (close : Char) : List (List Char) → List Char
  | [] => [close]
  | item :: rest => ',' :: (item ++ following close rest)

theorem length_following_pos (close : Char) (items : List (List Char)) :
    0 < (following close items).length := by
  cases items <;> simp [following]

theorem endsNumber_following {close : Char}
    (other : Decimal.isDigit close = false ∧ close ≠ '.' ∧ close ≠ 'e' ∧ close ≠ 'E')
    (items : List (List Char)) (rest : List Char) : EndsNumber (following close items ++ rest) := by
  cases items with
  | nil => exact endsNumber_cons other
  | cons item items => exact endsNumber_cons (by decide)

theorem intercalate_following (close : Char) (first : List Char) (items : List (List Char)) :
    List.intercalate [','] (first :: items) ++ [close] = first ++ following close items := by
  induction items generalizing first with
  | nil => simp [following]
  | cons second items ih =>
    rw [List.intercalate_cons_cons, List.append_assoc, ih second]
    simp [following]

/-- After a comma comes the next item. -/
theorem turn_comma {close c : Char} {more : List Char} (solid : c ∉ [' ', '\n', '\t', '\r', ']'])
    (apart : c ≠ close) (comma : ',' ≠ close) :
    turn close false (',' :: c :: more) = .item (c :: more) := by
  have here : skipBlanks (',' :: c :: more) = ',' :: c :: more := rfl
  rw [turn, here]
  simp only [if_neg comma, skipBlanks_cons solid, if_neg apart]
  rfl

theorem turn_first {close c : Char} {more : List Char} (solid : c ∉ [' ', '\n', '\t', '\r', ']'])
    (apart : c ≠ close) : turn close true (c :: more) = .item (c :: more) := by
  rw [turn, skipBlanks_cons solid]
  simp only [if_neg apart]
  rfl

section Array

variable {α : Type} {text : α → List Char} {node : α → Node}

/-- The items after one of an array are read to the closing bracket. -/
theorem readItems_following {items : List α}
    (each : ∀ item ∈ items, Written (text item) (node item)) (fuel : Nat) (rest : List Char)
    (enough : (following ']' (items.map text)).length < fuel) :
    readItems fuel false (following ']' (items.map text) ++ rest) =
      (items.map node, .closed, rest) := by
  induction items generalizing fuel with
  | nil =>
    cases fuel with
    | zero => omega
    | succ fuel => rfl
  | cons item items ih =>
    have own := each item List.mem_cons_self
    obtain ⟨c, more, opens, solid⟩ := own.opens
    simp only [List.map_cons, following, List.length_cons, List.length_append] at enough ⊢
    cases fuel with
    | zero => omega
    | succ fuel =>
      have apart : c ≠ ']' := fun same => solid (by simp [same])
      have next := own.read fuel (following ']' (items.map text) ++ rest) (by omega)
        (endsNumber_following (by decide) _ _)
      have later := ih (fun other member => each other (List.mem_cons_of_mem _ member))
        fuel (by omega)
      rw [opens] at next ⊢
      simp only [List.cons_append, List.append_assoc] at next ⊢
      simp only [readItems, turn_comma solid apart (by decide), next, own.whole, later, if_true]

theorem written_writeArray {text : α → String} {items : List α}
    (each : ∀ item ∈ items, Written (text item).toList (node item)) :
    Written (writeArray (items.map text)).toList (.array (items.map node) .closed) := by
  have start : "[".toList = ['['] := rfl
  have close : "]".toList = [']'] := rfl
  have comma : ",".toList = [','] := rfl
  have written : (writeArray (items.map text)).toList =
      '[' :: (List.intercalate [','] (items.map fun item => (text item).toList) ++ [']']) := by
    simp only [writeArray, String.toList_append, String.toList_intercalate, List.map_map,
      Function.comp_def, start, close, comma, List.cons_append, List.nil_append]
  rw [written]
  refine ⟨⟨'[', _, rfl, by decide⟩, rfl, fun fuel rest enough _ => ?_⟩
  have bracket : ∀ body : List Char, skipBlanks ('[' :: body) = '[' :: body := fun _ => rfl
  cases items with
  | nil =>
    obtain ⟨fuel, rfl⟩ : ∃ less, fuel = less + 2 := ⟨fuel - 2, by simp at enough; omega⟩
    rfl
  | cons item items =>
    have own := each item List.mem_cons_self
    obtain ⟨c, more, opens, solid⟩ := own.opens
    have apart : c ≠ ']' := fun same => solid (by simp [same])
    have some := length_following_pos ']' (items.map fun item => (text item).toList)
    rw [List.map_cons, intercalate_following] at enough ⊢
    simp only [List.length_cons, List.length_append] at enough
    obtain ⟨fuel, rfl⟩ : ∃ less, fuel = less + 2 := ⟨fuel - 2, by omega⟩
    have next := own.read fuel (following ']' (items.map fun item => (text item).toList) ++ rest)
      (by omega) (endsNumber_following (by decide) _ _)
    have size : 0 < (text item).toList.length := by simp [opens]
    have later := readItems_following
      (fun other member => each other (List.mem_cons_of_mem _ member)) fuel rest (by omega)
    rw [List.cons_append, readNode, bracket]
    rw [opens] at next ⊢
    simp only [List.cons_append, List.append_assoc] at next ⊢
    simp only [readItems, turn_first solid apart, next, own.whole, later, if_true]
    rfl

end Array

section Object

variable {α : Type} {key : α → String} {text : α → String} {node : α → Node}

/-- A member on one line. -/
def memberText (key text : String) : List Char :=
  '"' :: (key.toList.flatMap writeChar ++ '"' :: ':' :: text.toList)

/-- One member is read, and reading goes on after it. -/
theorem readMembers_memberText {key text : String} {node : Node}
    (written : Written text.toList node) {first : Bool} {fuel : Nat} {s rest : List Char}
    (ends : EndsNumber rest) (enough : text.toList.length < fuel)
    (item : turn '}' first s = .item (memberText key text ++ rest)) :
    readMembers (fuel + 1) first s =
      ((.ok key, node) :: (readMembers fuel false rest).1, (readMembers fuel false rest).2) := by
  have string := readString_writeChar key.toList (':' :: (text.toList ++ rest))
  rw [String.ofList_toList] at string
  have colon : skipBlanks (':' :: (text.toList ++ rest)) = ':' :: (text.toList ++ rest) := rfl
  have opens : memberText key text ++ rest =
      '"' :: (key.toList.flatMap writeChar ++ '"' :: ':' :: (text.toList ++ rest)) := by
    simp [memberText]
  rw [readMembers, item, opens]
  simp only [string, colon, written.read fuel rest enough ends, written.whole, if_true]

theorem readMembers_following (key : α → String) {members : List α}
    (each : ∀ member ∈ members, Written (text member).toList (node member)) (fuel : Nat)
    (rest : List Char)
    (enough : (following '}' (members.map fun member =>
      memberText (key member) (text member))).length < fuel) :
    readMembers fuel false (following '}' (members.map fun member =>
        memberText (key member) (text member)) ++ rest) =
      (members.map fun member => (.ok (key member), node member), .closed, rest) := by
  induction members generalizing fuel with
  | nil =>
    cases fuel with
    | zero => omega
    | succ fuel => rfl
  | cons member members ih =>
    simp only [List.map_cons, following, List.length_cons, List.length_append] at enough ⊢
    have size : (text member).toList.length < (memberText (key member) (text member)).length := by
      simp [memberText]
      omega
    cases fuel with
    | zero => omega
    | succ fuel =>
      have later := ih (fun other there => each other (List.mem_cons_of_mem _ there))
        fuel (by omega)
      have item : ∀ more, turn '}' false (',' :: (memberText (key member) (text member) ++ more)) =
          .item (memberText (key member) (text member) ++ more) := fun more =>
        turn_comma (by decide) (by decide) (by decide)
      have ends : EndsNumber (following '}' (members.map fun member =>
          memberText (key member) (text member)) ++ rest) := endsNumber_following (by decide) _ _
      rw [List.cons_append, List.append_assoc, readMembers_memberText
        (each member List.mem_cons_self) ends (by omega) (item _), later]

theorem written_writeObject {members : List α}
    (each : ∀ member ∈ members, Written (text member).toList (node member)) :
    Written (writeObject (members.map fun member => (key member, text member))).toList
      (.object (members.map fun member => (.ok (key member), node member)) .closed) := by
  have start : "\x7b".toList = ['{'] := rfl
  have close : "\x7d".toList = ['}'] := rfl
  have comma : ",".toList = [','] := rfl
  have line : ∀ member, (writeString (key member) ++ ":" ++ text member).toList =
      memberText (key member) (text member) := by
    intro member
    simp [memberText, toList_writeString]
  have written : (writeObject (members.map fun member => (key member, text member))).toList =
      '{' :: (List.intercalate [','] (members.map fun member =>
        memberText (key member) (text member)) ++ ['}']) := by
    simp only [writeObject, String.toList_append, String.toList_intercalate, List.map_map,
      Function.comp_def, start, close, comma, List.cons_append, List.nil_append, ← line]
  rw [written]
  refine ⟨⟨'{', _, rfl, by decide⟩, rfl, fun fuel rest enough _ => ?_⟩
  have brace : ∀ body : List Char, skipBlanks ('{' :: body) = '{' :: body := fun _ => rfl
  cases members with
  | nil =>
    obtain ⟨fuel, rfl⟩ : ∃ less, fuel = less + 2 := ⟨fuel - 2, by simp at enough; omega⟩
    rfl
  | cons member members =>
    have size : (text member).toList.length < (memberText (key member) (text member)).length := by
      simp [memberText]
      omega
    rw [List.map_cons, intercalate_following] at enough ⊢
    simp only [List.length_cons, List.length_append] at enough
    obtain ⟨fuel, rfl⟩ : ∃ less, fuel = less + 2 := ⟨fuel - 2, by omega⟩
    have later := readMembers_following key
      (fun other there => each other (List.mem_cons_of_mem _ there)) fuel rest (by omega)
    have item : ∀ more, turn '}' true (memberText (key member) (text member) ++ more) =
        .item (memberText (key member) (text member) ++ more) := fun more =>
      turn_first (by decide) (by decide)
    have ends : EndsNumber (following '}' (members.map fun member =>
        memberText (key member) (text member)) ++ rest) := endsNumber_following (by decide) _ _
    rw [List.cons_append, readNode, brace]
    simp only [List.append_assoc, readMembers_memberText (each member List.mem_cons_self) ends
      (show (text member).toList.length < fuel by omega) (item _), later]
    rfl

end Object

end StyleMonitor.Json
