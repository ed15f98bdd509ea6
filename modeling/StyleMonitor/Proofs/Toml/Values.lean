import StyleMonitor.Proofs.Toml.Refill

/-!
# Values

A value is read again from its text, wherever the text goes on with the end of its line or of what
it is a part of. What is read then has the same shape: the keys of inline tables come in the order
of the tree.
-/

namespace StyleMonitor.Toml

/-- What can follow a value. -/
def ValueEnd (rest : List Char) : Prop :=
  ∀ c ∈ (rest.dropWhile isBlank).head?, c = '\n' ∨ c = '#' ∨ c = ',' ∨ c = ']' ∨ c = '}'

/-- What a value can start with. -/
def startsValue (c : Char) : Bool :=
  c = '[' || c = '{' || isQuote c || isScalarChar c

theorem ValueEnd.head {rest : List Char} (ends : ValueEnd rest) :
    ∀ c ∈ rest.head?, isScalarChar c = false ∧ isQuote c = false := by
  cases rest with
  | nil => nofun
  | cons d rest =>
    rintro c ⟨⟩
    by_cases blank : isBlank d = true
    · simp only [isBlank, Bool.or_eq_true, decide_eq_true_eq] at blank
      rcases blank with rfl | rfl <;> decide
    · have := ends d (by simp [blank])
      rcases this with rfl | rfl | rfl | rfl | rfl <;> decide

/-- The end of a value that comes after a blank is no digit. -/
theorem ValueEnd.after_space {c : Char} {rest : List Char} (ends : ValueEnd (' ' :: c :: rest)) :
    Decimal.isDigit c = false := by
  by_cases blank : isBlank c = true
  · simp only [isBlank, Bool.or_eq_true, decide_eq_true_eq] at blank
    rcases blank with rfl | rfl <;> decide
  · have := ends c (by simp [show isBlank ' ' = true by decide, blank])
    rcases this with rfl | rfl | rfl | rfl | rfl <;> decide

/-- A value can stand before blanks, newlines and comments and what ends its part. -/
theorem valueEnd_trivia {trivia : List Char} (trivial : isTrivia false trivia = true) {c : Char}
    (ends : c = ',' ∨ c = ']' ∨ c = '}') (rest : List Char) : ValueEnd (trivia ++ c :: rest) := by
  induction trivia with
  | nil =>
    have notBlank : isBlank c = false := by rcases ends with rfl | rfl | rfl <;> decide
    intro d mem
    rw [List.nil_append, List.dropWhile_cons_of_neg (by simp [notBlank])] at mem
    cases mem
    tauto
  | cons d trivia ih =>
    intro e mem
    rw [isTrivia] at trivial
    split at trivial
    · next newline =>
      subst newline
      rw [List.cons_append, List.dropWhile_cons_of_neg (by decide)] at mem
      cases mem
      tauto
    · next newline =>
      rw [if_neg (by decide)] at trivial
      split at trivial
      · next blank =>
        rw [List.cons_append, List.dropWhile_cons_of_pos blank] at mem
        exact ih trivial e mem
      · next blank =>
        rw [List.cons_append, List.dropWhile_cons_of_neg blank] at mem
        cases mem
        have hash : d = '#' := by
          simp only [Bool.and_eq_true, decide_eq_true_eq] at trivial
          exact trivial.1
        tauto

/-- A value can stand before the end of its line. -/
theorem valueEnd_lineEnd {s : List Char} (ends : LineEnd s) (rest : List Char) :
    ValueEnd (s ++ '\n' :: rest) := by
  obtain ⟨blanks, comment, rfl, blank, -, hash⟩ := ends
  have stop : ∀ c ∈ (comment ++ '\n' :: rest).head?, isBlank c = false := by
    cases comment with
    | nil => simp; decide
    | cons c comment =>
      have := hash c rfl
      subst this
      simp; decide
  intro c mem
  rw [List.append_assoc, (blank.span stop).2] at mem
  cases comment with
  | nil =>
    cases mem
    exact Or.inl rfl
  | cons d comment =>
    have same : d = c := by simpa using mem
    have := hash d rfl
    rw [same] at this
    exact Or.inr (Or.inl this)

/-! ### Scalars -/

/-- The spelling of a scalar without quotes: a row of its characters, or a date and a time with a
blank between them. -/
inductive Unquoted : List Char → Prop
  | row {s : List Char} (chars : ∀ c ∈ s, isScalarChar c = true) : Unquoted s
  | moment {date time : List Char} {c : Char} (chars : ∀ d ∈ date, isScalarChar d = true)
      (isDate : afterDate? date = some []) (digit : Decimal.isDigit c = true)
      (onward : ∀ d ∈ c :: time, isScalarChar d = true) : Unquoted (date ++ ' ' :: c :: time)

namespace Unquoted

variable {s spelling rest : List Char}

theorem clean (unquoted : Unquoted s) : '\r' ∉ s := by
  cases unquoted with
  | row chars => exact fun member => absurd (chars _ member) (by decide)
  | moment chars _ _ onward =>
    intro member
    rcases List.mem_append.mp member with member | _ | ⟨_, member⟩
    · exact absurd (chars _ member) (by decide)
    · exact absurd (onward _ member) (by decide)

theorem head (unquoted : Unquoted s) : ∀ c ∈ s.head?, isScalarChar c = true := by
  cases unquoted with
  | row chars => exact fun c member => chars c (List.mem_of_mem_head? member)
  | @moment date time c chars isDate _ _ =>
    cases date with
    | nil => cases isDate
    | cons d date =>
      rintro _ ⟨⟩
      exact chars d List.mem_cons_self

theorem spans (unquoted : Unquoted s) (ends : ValueEnd rest) :
    spanScalar (s ++ rest) = (s, rest) := by
  have stop : ∀ c ∈ rest.head?, isScalarChar c = false := fun c member => (ends.head c member).1
  cases unquoted with
  | row chars =>
    have span := span_append chars stop
    unfold spanScalar
    rw [span.1, span.2]
    split
    · next c more =>
      rw [if_neg]
      rintro ⟨digit, -⟩
      rw [ends.after_space] at digit
      cases digit
    · rfl
  | @moment date time c chars isDate digit onward =>
    have blank : ∀ d ∈ (' ' :: (c :: time ++ rest)).head?, isScalarChar d = false := by
      rintro _ ⟨⟩
      decide
    have first := span_append chars blank
    have second := span_append onward stop
    rw [List.append_assoc, List.cons_append]
    simp only [List.cons_append] at first second ⊢
    unfold spanScalar
    rw [first.1, first.2]
    simp only [digit, isDate, and_self, if_true, second.1, second.2]

theorem of_span (span : spanScalar s = (spelling, rest)) :
    s = spelling ++ rest ∧ Unquoted spelling := by
  have chars : ∀ {t : List Char}, ∀ c ∈ t.takeWhile isScalarChar, isScalarChar c = true :=
    fun c member => List.mem_takeWhile_imp member
  have whole := List.takeWhile_append_dropWhile (p := isScalarChar) (l := s)
  simp only [spanScalar] at span
  split at span
  · next c more found =>
    split at span
    · next date =>
      cases span
      have digit : isScalarChar c = true := by simp [isScalarChar, date.1]
      have onward := chars (t := c :: more)
      have time : (c :: more).takeWhile isScalarChar ++ (c :: more).dropWhile isScalarChar =
          c :: more := List.takeWhile_append_dropWhile
      rw [List.takeWhile_cons_of_pos digit] at onward time ⊢
      refine ⟨?_, .moment chars date.2 date.1 onward⟩
      rw [List.append_assoc, List.cons_append, time, ← found, whole]
    · cases span
      rw [← found]
      exact ⟨whole.symm, .row chars⟩
  · cases span
    exact ⟨whole.symm, .row chars⟩

end Unquoted

/-- A scalar without quotes is read again where none of its characters follow. -/
theorem spanScalar_append {s spelling rest : List Char}
    (span : spanScalar s = (spelling, rest)) :
    s = spelling ++ rest ∧ '\r' ∉ spelling ∧ (∀ c ∈ spelling.head?, isScalarChar c = true) ∧
      ∀ other, ValueEnd other → spanScalar (spelling ++ other) = (spelling, other) := by
  obtain ⟨whole, unquoted⟩ := Unquoted.of_span span
  exact ⟨whole, unquoted.clean, unquoted.head, fun _ ends => unquoted.spans ends⟩

theorem ofSpelling?_nil : ofSpelling? [] = none := by decide

/-! ### Values that are read again -/

namespace Item

/-- The decoration of a value. -/
def decor : Item → Decor
  | scalar decor _ _ => decor
  | array decor _ _ => decor
  | inline decor _ _ => decor
  | _ => {}

/-- The text of a value without its decoration. -/
def bare : Item → List Char
  | scalar _ spelling _ => spelling
  | array _ items ending => '[' :: Text.joinFields ',' (itemTexts items) ++ ending ++ [']']
  | inline _ members ending => '{' :: Text.joinFields ',' (memberTexts [] members) ++ ending ++ ['}']
  | _ => []

theorem text_eq {item : Item} (value : item.isValue = true) (before after : List Char) :
    item.text before after = item.decor.around before after item.bare := by
  cases item with
  | table => cases value
  | tables => cases value
  | _ => rfl

theorem bare_decorated (item : Item) (decor : Decor) : (item.decorated decor).bare = item.bare := by
  cases item <;> rfl

theorem decor_decorated {item : Item} (value : item.isValue = true) (decor : Decor) :
    (item.decorated decor).decor = decor := by
  cases item with
  | table => cases value
  | tables => cases value
  | _ => rfl

theorem isValue_decorated (item : Item) (decor : Decor) :
    (item.decorated decor).isValue = item.isValue := by
  cases item <;> rfl

/-- Whether a value without two keys of one name is read again from its text, so deep in arrays and
inline tables. -/
structure Rereads (depth : Nat) (item : Item) : Prop where
  value : item.isValue = true
  distinct : item.Distinct
  starts : ∃ c more, item.bare = c :: more ∧ startsValue c = true
  reads : ∀ fuel rest, item.bare.length ≤ fuel → ValueEnd rest → ∃ again,
    readValue fuel depth (item.bare ++ rest) = some (again, rest) ∧ again.shape = item.shape

theorem Rereads.decorated {depth : Nat} {item : Item} (rereads : item.Rereads depth)
    (decor : Decor) : (item.decorated decor).Rereads depth := by
  obtain ⟨value, distinct, starts, reads⟩ := rereads
  refine ⟨by rw [isValue_decorated, value], distinct.decorated decor, by rwa [bare_decorated], ?_⟩
  rw [bare_decorated, shape_decorated]
  exact reads

/-- A value that is read again where `End` holds of what is written after it. -/
def Fits (End : List Char → Prop) (depth : Nat) (item : Item) : Prop :=
  item.Rereads depth ∧ Blank (item.decor.before.getD [' ']) ∧ End (item.decor.after.getD [])

end Item

theorem startsValue_ne {c : Char} (starts : startsValue c = true) :
    startsTrivia c = false ∧ isBlank c = false ∧ c ≠ ']' := by
  have each : ∀ d, startsValue d = false → c ≠ d := by
    rintro d no rfl
    rw [starts] at no
    cases no
  refine ⟨?_, ?_, each ']' (by decide)⟩
  · simp [startsTrivia, isBlank, each '\n' (by decide), each ' ' (by decide),
      each '\t' (by decide), each '#' (by decide)]
  · simp [isBlank, each ' ' (by decide), each '\t' (by decide)]

/-! ### Items of arrays -/

/-- Whether a text is made of blanks, newlines and comments. -/
abbrev Trivia (s : List Char) : Prop :=
  isTrivia false s = true

/-- What holds of an item of an array: it is read again, and only blanks, newlines and comments are
written around it. -/
def ArrayItem (depth : Nat) (item : Item) : Prop :=
  item.Rereads depth ∧ Trivia (item.decor.before.getD []) ∧ Trivia (item.decor.after.getD [])

/-- What can stand between the last part of an array or inline table and its bracket. -/
def Ending (empty : Bool) (ending : List Char) : Prop :=
  if empty then Trivia ending else ending = [] ∨ ∃ trivia, ending = ',' :: trivia ∧ Trivia trivia

/-- An item is read again up to what follows it. -/
theorem readItems_item {depth : Nat} {item : Item} (good : ArrayItem depth item) (fuel : Nat)
    (enough : item.bare.length ≤ fuel) {c : Char} (ends : c = ',' ∨ c = ']') (rest : List Char) :
    ∃ again : Item, again.shape = item.shape ∧ ∀ done,
      readItems (fuel + 1) depth done (item.text [] [] ++ c :: rest) =
        if c = ',' then readItems fuel depth (done ++ [again]) rest
        else some ((done ++ [again], []), rest) := by
  obtain ⟨⟨value, -, ⟨d, more, bare, starts⟩, reads⟩, before, after⟩ := good
  obtain ⟨noTrivia, -, notClosing⟩ := startsValue_ne starts
  obtain ⟨again, read, shape⟩ := reads fuel (item.decor.after.getD [] ++ c :: rest) enough
    (valueEnd_trivia after (by tauto) rest)
  refine ⟨again.decorated (.written (item.decor.before.getD []) (item.decor.after.getD [])),
    by rw [shape_decorated, shape], fun done => ?_⟩
  have first : readTrivia false (item.decor.before.getD [] ++
      (item.bare ++ (item.decor.after.getD [] ++ c :: rest))) = some (_, _) :=
    readTrivia_append before (by rw [bare]; rintro e ⟨⟩; exact noTrivia)
  have second : readTrivia false (item.decor.after.getD [] ++ c :: rest) = some (_, c :: rest) :=
    readTrivia_append after (by rintro e ⟨⟩; rcases ends with rfl | rfl <;> decide)
  have notEnd : (item.bare ++ (item.decor.after.getD [] ++ c :: rest)).head? ≠ some ']' := by
    rw [bare]
    simpa using notClosing
  have split : item.text [] [] ++ c :: rest =
      item.decor.before.getD [] ++ (item.bare ++ (item.decor.after.getD [] ++ c :: rest)) := by
    rw [Item.text_eq value, Decor.around]
    simp
  rw [split, readItems]
  simp only [first, Option.bind_eq_bind, Option.bind_some, if_neg notEnd, read, second,
    List.head?_cons, Option.some.injEq, List.tail_cons, Option.pure_def]
  rcases ends with rfl | rfl
  · simp
  · simp

/-- A bracket after blanks, newlines and comments ends an array. -/
theorem readItems_closing {trivia : List Char} (trivial : Trivia trivia)
    (fuel depth : Nat) (done : List Item) (rest : List Char) :
    ∃ left, readItems (fuel + 1) depth done (trivia ++ ']' :: rest) = some ((done, left), rest) := by
  have read : readTrivia false (trivia ++ ']' :: rest) = some (_, ']' :: rest) :=
    readTrivia_append trivial (by simp; decide)
  rw [readItems]
  simp only [read, Option.bind_eq_bind, Option.bind_some]
  exact ⟨_, rfl⟩

/-- The items of an array are read again with their shapes. -/
theorem readItems_texts {depth : Nat} {items : List Item}
    (each : ∀ item ∈ items, ArrayItem depth item) {ending : List Char}
    (closes : Ending items.isEmpty ending) (fuel : Nat)
    (enough : (Text.joinFields ',' (itemTexts items) ++ ending ++ [']']).length ≤ fuel)
    (done : List Item) (rest : List Char) :
    ∃ again left, readItems fuel depth done
        (Text.joinFields ',' (itemTexts items) ++ ending ++ ']' :: rest) =
          some ((done ++ again, left), rest) ∧ again.map Item.shape = items.map Item.shape := by
  induction items generalizing done fuel with
  | nil =>
    obtain ⟨fuel, rfl⟩ := Nat.exists_eq_succ_of_ne_zero (show fuel ≠ 0 by simp at enough; omega)
    obtain ⟨left, read⟩ := readItems_closing closes fuel depth done rest
    exact ⟨[], left, by simpa [itemTexts, Text.joinFields, List.intercalate] using read, rfl⟩
  | cons item items ih =>
    have good := each item List.mem_cons_self
    have size : item.bare.length ≤ (item.text [] []).length := by
      rw [Item.text_eq good.1.value, Decor.around]
      simp only [List.length_append]
      omega
    obtain ⟨fuel, rfl⟩ := Nat.exists_eq_succ_of_ne_zero (show fuel ≠ 0 by simp at enough; omega)
    cases items with
    | nil =>
      rw [itemTexts, itemTexts, Text.joinFields_singleton] at enough ⊢
      simp only [List.length_append, List.length_cons] at enough
      rcases closes with rfl | ⟨trivia, rfl, trivial⟩
      · obtain ⟨again, shape, read⟩ := readItems_item good fuel
          (by simp at enough; omega) (Or.inr rfl) rest
        refine ⟨[again], [], ?_, by simp [shape]⟩
        rw [List.append_nil, read, if_neg (by decide)]
      · obtain ⟨again, shape, read⟩ := readItems_item good fuel
          (by simp at enough; omega) (Or.inl rfl) (trivia ++ ']' :: rest)
        obtain ⟨fuel, rfl⟩ := Nat.exists_eq_succ_of_ne_zero
          (show fuel ≠ 0 by simp at enough; omega)
        obtain ⟨left, close⟩ := readItems_closing trivial fuel depth (done ++ [again]) rest
        refine ⟨[again], left, ?_, by simp [shape]⟩
        rw [List.append_assoc, List.cons_append, read, if_pos rfl, close]
    | cons next items =>
      rw [itemTexts, itemTexts, Text.joinFields_cons_cons] at enough ⊢
      rw [← itemTexts] at enough ⊢
      simp only [List.length_append, List.length_cons] at enough
      obtain ⟨again, shape, read⟩ := readItems_item good fuel (by omega) (Or.inl rfl)
        (Text.joinFields ',' (itemTexts (next :: items)) ++ ending ++ ']' :: rest)
      obtain ⟨others, left, readOthers, shapes⟩ :=
        ih (fun i mem => each i (List.mem_cons_of_mem _ mem)) closes fuel
          (by simp only [List.length_append, List.length_cons]; omega) (done ++ [again])
      refine ⟨again :: others, left, ?_, by simp [shape, shapes]⟩
      rw [List.append_assoc, List.append_assoc, List.cons_append, ← List.append_assoc _ ending, read,
        if_pos rfl, readOthers, List.append_assoc, List.singleton_append]

/-! ### Lines with keys -/

/-- What holds of a line: its keys and its value are read again. -/
structure LineFits (End : List Char → Prop) (depth : Nat) (line : List Key × Key × Item) :
    Prop where
  path : ∀ key ∈ line.1, key.Legible
  leaf : line.2.1.Legible
  value : line.2.2.Fits End depth

theorem startsKey {key : Key} (spelled : key.Spelled) :
    ∃ c more, key.spelling = c :: more ∧ startsTrivia c = false ∧ c ≠ '}' ∧ c ≠ '[' := by
  obtain ⟨-, c, more, starts, kind⟩ := spelled
  have each : ∀ d, isKeyChar d = false → isQuote d = false → c ≠ d := by
    rintro d noKey noQuote rfl
    rw [noKey, noQuote] at kind
    simp at kind
  refine ⟨c, more, starts, ?_, each '}' (by decide) (by decide), each '[' (by decide) (by decide)⟩
  simp [startsTrivia, isBlank, each '\n' (by decide) (by decide), each ' ' (by decide) (by decide),
    each '\t' (by decide) (by decide), each '#' (by decide) (by decide)]

theorem rowFrom_eq_append (key : Key) (more : List Key) :
    ∃ rest, rowFrom key more = key.spelling ++ rest := by
  cases more with
  | nil => exact ⟨[], by simp [rowFrom]⟩
  | cons next more => exact ⟨_, by rw [rowFrom, List.append_assoc]⟩

/-- A line is read again, part by part: what stands before it, its keys, and where its value
starts. -/
theorem read_lineText {End : List Char → Prop} {depth : Nat} {line : List Key × Key × Item}
    (fits : LineFits End depth line) (rest : List Char) :
    ∃ trivia c more path leaf s,
      readTrivia false (lineText line ++ rest) = some (trivia, c :: more) ∧ c ≠ '}' ∧ c ≠ '[' ∧
      readRow trivia (c :: more) = some ((path, leaf), '=' :: s) ∧
      path.map Key.name = line.1.map Key.name ∧ leaf.name = line.2.1.name ∧
      s.dropWhile isBlank = line.2.2.bare ++ (line.2.2.decor.after.getD [] ++ rest) := by
  obtain ⟨path, leaf, item⟩ := line
  obtain ⟨legiblePath, legibleLeaf, ⟨value, -, starts, -⟩, blankBefore, -⟩ := fits
  obtain ⟨key, more, row⟩ : ∃ key more, path ++ [leaf] = key :: more := by
    cases path with
    | nil => exact ⟨leaf, [], rfl⟩
    | cons key path => exact ⟨key, path ++ [leaf], rfl⟩
  have legible : ∀ k ∈ key :: more, k.Legible := by
    rw [← row, List.forall_mem_append, List.forall_mem_singleton]
    exact ⟨legiblePath, legibleLeaf⟩
  have blankAfter : Blank (leaf.outer.after.getD [' ']) := by
    have := legibleLeaf.after
    cases written : leaf.outer.after with
    | none => exact fun c mem => by rw [List.mem_singleton.mp mem]; decide
    | some after => rwa [written] at this
  set value' := item.decor.before.getD [' '] ++ (item.bare ++ (item.decor.after.getD [] ++ rest))
    with valueDef
  have split : lineText (path, leaf, item) ++ rest = leaf.outer.before.getD [] ++
      (rowFrom key more ++ (leaf.outer.after.getD [' '] ++ '=' :: value')) := by
    rw [lineText, row, rowText_cons, ← row, List.getLast?_concat, Item.text_eq value,
      Decor.around, Decor.around]
    simp [valueDef]
  obtain ⟨path', leaf', readR, names⟩ := readRow_rowFrom legible .nil blankAfter (Or.inl rfl)
    (leaf.outer.before.getD []) value'
  rw [List.nil_append] at readR
  obtain ⟨rowRest, rowIs⟩ := rowFrom_eq_append key more
  obtain ⟨c, keyRest, spelling, noTrivia, notBrace, notBracket⟩ :=
    startsKey (legible key List.mem_cons_self).spelled
  rw [spelling, List.cons_append] at rowIs
  have readT : readTrivia false (leaf.outer.before.getD [] ++ (rowFrom key more ++
      (leaf.outer.after.getD [' '] ++ '=' :: value'))) = some (_, _) :=
    readTrivia_append legibleLeaf.before (by rw [rowIs]; rintro d ⟨⟩; exact noTrivia)
  have dropped : value'.dropWhile isBlank = item.bare ++ (item.decor.after.getD [] ++ rest) := by
    refine (blankBefore.span ?_).2
    obtain ⟨d, bareRest, bare, starts⟩ := starts
    rw [bare]
    rintro e ⟨⟩
    exact (startsValue_ne starts).2.1
  rw [← row, List.map_append, List.map_append, List.map_singleton, List.map_singleton] at names
  obtain ⟨pathNames, leafNames⟩ := List.append_inj' names rfl
  rw [rowIs, List.cons_append] at readT readR
  refine ⟨_, c, _, path', leaf', value', ?_, notBrace, notBracket, readR, pathNames,
    by simpa using leafNames, dropped⟩
  rw [split, rowIs, List.cons_append, readT]

/-- The text of a line is longer than that of its value. -/
theorem length_bare_le {End : List Char → Prop} {depth : Nat} {line : List Key × Key × Item}
    (fits : LineFits End depth line) : line.2.2.bare.length ≤ (lineText line).length := by
  rw [lineText, Item.text_eq fits.value.1.value, Decor.around]
  simp only [List.length_append, List.length_cons]
  omega

/-! ### Keys of inline tables -/

/-- A line of an inline table is defined again. -/
theorem readMembers_line {depth : Nat} {line : List Key × Key × Item}
    (fits : LineFits Trivia depth line) (fuel : Nat) (enough : (lineText line).length ≤ fuel)
    {c : Char} (ends : c = ',' ∨ c = '}') (rest : List Char) {done : Members} {defined : Fields}
    (defines : (memberShapes done).define line.2.1.name line.2.2.shape (line.1.map Key.name) =
      some defined) :
    ∃ again, memberShapes again = defined ∧
      readMembers (fuel + 1) depth done (lineText line ++ c :: rest) =
        if c = ',' then readMembers fuel depth again rest else some ((again, []), rest) := by
  have after := fits.value.2.2
  obtain ⟨trivia, d, more, path, leaf, s, readT, notBrace, -, readR, pathNames, leafName,
    starts⟩ := read_lineText fits (c :: rest)
  obtain ⟨value, readV, shape⟩ := fits.value.1.reads fuel (line.2.2.decor.after.getD [] ++ c :: rest)
    ((length_bare_le fits).trans enough) (valueEnd_trivia after (by tauto) rest)
  have readA : readTrivia false (line.2.2.decor.after.getD [] ++ c :: rest) = some (_, c :: rest) :=
    readTrivia_append after (by rintro e ⟨⟩; rcases ends with rfl | rfl <;> decide)
  set decorated := value.decorated
    (.written (s.takeWhile isBlank) (line.2.2.decor.after.getD [])) with decoratedDef
  have hom := memberShapes_define leaf decorated path done
  rw [decoratedDef, shape_decorated, shape, leafName, pathNames, defines, ← decoratedDef] at hom
  obtain ⟨again, result, shapes⟩ := Option.map_eq_some_iff.mp hom
  refine ⟨again, shapes, ?_⟩
  have equals : after? '=' ('=' :: s) = some s := by simp [after?]
  rw [readMembers]
  simp only [readT, Option.bind_eq_bind, Option.bind_some, List.head?_cons, Option.some.injEq,
    if_neg notBrace, readR, equals, starts, readV, readA, ← decoratedDef, result, List.tail_cons,
    Option.pure_def]
  rcases ends with rfl | rfl
  · simp
  · simp

/-- A brace after blanks, newlines and comments ends an inline table. -/
theorem readMembers_closing {trivia : List Char} (trivial : Trivia trivia)
    (fuel depth : Nat) (done : Members) (rest : List Char) :
    ∃ left, readMembers (fuel + 1) depth done (trivia ++ '}' :: rest) =
      some ((done, left), rest) := by
  have read : readTrivia false (trivia ++ '}' :: rest) = some (_, '}' :: rest) :=
    readTrivia_append trivial (by simp; decide)
  rw [readMembers]
  simp only [read, Option.bind_eq_bind, Option.bind_some]
  exact ⟨_, rfl⟩

/-- The lines of an inline table are defined again, one after the other. -/
theorem readMembers_texts {depth : Nat} {lines : List (List Key × Key × Item)}
    (each : ∀ line ∈ lines, LineFits Trivia depth line) {ending : List Char}
    (closes : Ending lines.isEmpty ending) (fuel : Nat)
    (enough : (Text.joinFields ',' (lines.map lineText) ++ ending ++ ['}']).length ≤ fuel)
    (done : Members) {filled : Fields}
    (fills : (memberShapes done).fill (lines.map lineShape) = some filled) (rest : List Char) :
    ∃ again left, readMembers fuel depth done
        (Text.joinFields ',' (lines.map lineText) ++ ending ++ '}' :: rest) =
          some ((again, left), rest) ∧ memberShapes again = filled := by
  induction lines generalizing done fuel with
  | nil =>
    obtain ⟨fuel, rfl⟩ := Nat.exists_eq_succ_of_ne_zero (show fuel ≠ 0 by simp at enough; omega)
    obtain ⟨left, read⟩ := readMembers_closing closes fuel depth done rest
    refine ⟨done, left, by simpa [Text.joinFields, List.intercalate] using read, ?_⟩
    exact Option.some.inj fills
  | cons line lines ih =>
    have good := each line List.mem_cons_self
    obtain ⟨fuel, rfl⟩ := Nat.exists_eq_succ_of_ne_zero (show fuel ≠ 0 by simp at enough; omega)
    rw [List.map_cons, Fields.fill, List.foldlM_cons] at fills
    obtain ⟨defined, defines, fillsRest⟩ := Option.bind_eq_some_iff.mp fills
    cases lines with
    | nil =>
      rw [List.map_cons, List.map_nil, Text.joinFields_singleton] at enough ⊢
      simp only [List.length_append, List.length_cons] at enough
      cases fillsRest
      rcases closes with rfl | ⟨trivia, rfl, trivial⟩
      · obtain ⟨again, shapes, read⟩ := readMembers_line good fuel
          (by simp at enough; omega) (Or.inr rfl) rest defines
        refine ⟨again, [], ?_, shapes⟩
        rw [List.append_nil, read, if_neg (by decide)]
      · obtain ⟨again, shapes, read⟩ := readMembers_line good fuel
          (by simp at enough; omega) (Or.inl rfl) (trivia ++ '}' :: rest) defines
        obtain ⟨fuel, rfl⟩ := Nat.exists_eq_succ_of_ne_zero
          (show fuel ≠ 0 by simp at enough; omega)
        obtain ⟨left, close⟩ := readMembers_closing trivial fuel depth again rest
        refine ⟨again, left, ?_, shapes⟩
        rw [List.append_assoc, List.cons_append, read, if_pos rfl, close]
    | cons next lines =>
      rw [List.map_cons, List.map_cons, Text.joinFields_cons_cons] at enough ⊢
      rw [← List.map_cons] at enough ⊢
      simp only [List.length_append, List.length_cons] at enough
      obtain ⟨again, shapes, read⟩ := readMembers_line good fuel (by omega) (Or.inl rfl)
        (Text.joinFields ',' ((next :: lines).map lineText) ++ ending ++ '}' :: rest) defines
      obtain ⟨all, left, readOthers, shapesAll⟩ :=
        ih (fun l mem => each l (List.mem_cons_of_mem _ mem)) closes fuel
          (by simp only [List.length_append, List.length_cons]; omega) again
          (by rw [shapes]; exact fillsRest)
      refine ⟨all, left, ?_, shapesAll⟩
      rw [List.append_assoc, List.append_assoc, List.cons_append, ← List.append_assoc _ ending, read,
        if_pos rfl, readOthers]

mutual

theorem lineFits_linesAt {End : List Char → Prop} {depth : Nat} {row : List Key} {key : Key}
    (legibleRow : ∀ k ∈ row, k.Legible) (legible : key.Legible) :
    ∀ item : Item, item.Sound (Item.Fits End depth) →
      ∀ line ∈ item.linesAt row key, LineFits End depth line
  | .scalar .., sound => by
    cases sound with
    | value _ fits => exact List.forall_mem_singleton.mpr ⟨legibleRow, legible, fits⟩
  | .array .., sound => by
    cases sound with
    | value _ fits => exact List.forall_mem_singleton.mpr ⟨legibleRow, legible, fits⟩
  | .inline .., sound => by
    cases sound with
    | value _ fits => exact List.forall_mem_singleton.mpr ⟨legibleRow, legible, fits⟩
  | .tables .., _ => nofun
  | .table heading members, sound => by
    rw [Item.linesAt]
    split
    · refine lineFits_linesBelow ?_ members sound.of_table.2
      rw [List.forall_mem_append, List.forall_mem_singleton]
      exact ⟨legibleRow, legible⟩
    · nofun

/-- The lines of a sound table are read again. -/
theorem lineFits_linesBelow {End : List Char → Prop} {depth : Nat} {row : List Key}
    (legibleRow : ∀ k ∈ row, k.Legible) :
    ∀ members : Members, members.Sound (Item.Fits End depth) →
      ∀ line ∈ linesBelow row members, LineFits End depth line
  | [], _ => nofun
  | (key, item) :: rest, sound => by
    obtain ⟨own, -, soundRest⟩ := sound.of_cons
    have legible := sound.proper.legible _ List.mem_cons_self
    rw [linesBelow, List.forall_mem_append]
    exact ⟨lineFits_linesAt legibleRow legible item own,
      lineFits_linesBelow legibleRow rest soundRest⟩

end

/-- Whether an item is a value or a table of dotted keys with nothing else below it. -/
inductive Item.Plain : Item → Prop
  | value {item : Item} : item.isValue = true → Plain item
  | dotted {heading : Heading} {members : Members} : heading.dotted = true →
      (∀ member ∈ members, Plain member.2) → Plain (.table heading members)

mutual

theorem lineShape?_of_plain : ∀ item : Item, item.Plain → item.lineShape? = some item.shape
  | .scalar .., _ => rfl
  | .array .., _ => rfl
  | .inline .., _ => rfl
  | .tables .., plain => by
    cases plain with
    | value no => cases no
  | .table heading members, plain => by
    cases plain with
    | value no => cases no
    | dotted dotted below => rw [Item.lineShape?, if_pos dotted, lineShapes_of_plain members below, Item.shape]

/-- All of an inline table is written on its lines. -/
theorem lineShapes_of_plain :
    ∀ members : Members, (∀ member ∈ members, member.2.Plain) →
      lineShapes members = memberShapes members
  | [], _ => rfl
  | (key, item) :: rest, plain => by
    rw [lineShapes, memberShapes, lineShape?_of_plain item (plain _ List.mem_cons_self),
      lineShapes_of_plain rest fun m mem => plain m (List.mem_cons_of_mem _ mem)]

end

theorem plain_define {leaf : Key} {item : Item} (value : item.isValue = true) {path : List Key}
    {members defined : Members} (plain : ∀ member ∈ members, member.2.Plain)
    (result : members.define leaf item path = some defined) :
    ∀ member ∈ defined, member.2.Plain := by
  induction path generalizing members defined with
  | nil =>
    rw [Members.define] at result
    split at result
    · cases result
      rw [List.forall_mem_append, List.forall_mem_singleton]
      exact ⟨plain, .value value⟩
    · cases result
  | cons key path ih =>
    rw [Members.define] at result
    split at result
    · simp only [Option.map_eq_some_iff] at result
      obtain ⟨below, readBelow, rfl⟩ := result
      rw [List.forall_mem_append, List.forall_mem_singleton]
      exact ⟨plain, .dotted rfl (ih (by simp) readBelow)⟩
    · next heading below found =>
      split at result
      · simp only [Option.map_eq_some_iff] at result
        obtain ⟨below', readBelow, rfl⟩ := result
        obtain ⟨own, mem, -⟩ := Members.mem_of_get? found
        cases plain _ mem with
        | value no => cases no
        | dotted _ plainBelow =>
          intro member mem
          rcases Members.mem_set found mem with kept | ⟨-, changed⟩
          · exact plain member kept
          · rw [changed]
            exact .dotted rfl (ih plainBelow readBelow)
      · cases result
    · cases result

/-! ### All values -/

namespace Item

theorem Rereads.scalar {spelling : List Char} {value : Scalar} {depth : Nat}
    (spelled : ofSpelling? spelling = some value) (head : ∀ c ∈ spelling.head?, isScalarChar c = true)
    (spans : ∀ other, ValueEnd other → spanScalar (spelling ++ other) = (spelling, other)) :
    (Item.scalar {} spelling value).Rereads depth := by
  obtain ⟨c, more, rfl⟩ : ∃ c more, spelling = c :: more := by
    cases spelling with
    | nil =>
      rw [ofSpelling?_nil] at spelled
      cases spelled
    | cons c more => exact ⟨c, more, rfl⟩
  have char := head c rfl
  have each : ∀ d, isScalarChar d = false → c ≠ d := by
    rintro d no rfl
    rw [char] at no
    cases no
  refine ⟨rfl, .scalar .., ⟨c, more, rfl, by simp [startsValue, char]⟩, fun fuel rest enough ends => ?_⟩
  obtain ⟨fuel, rfl⟩ := Nat.exists_eq_succ_of_ne_zero
    (show fuel ≠ 0 by rintro rfl; simp [bare] at enough)
  refine ⟨.scalar {} (c :: more) value, ?_, rfl⟩
  have notString : ¬ (c = '"' ∨ c = '\'') := by
    rintro (quote | quote)
    · exact each '"' (by decide) quote
    · exact each '\'' (by decide) quote
  have span := spans rest ends
  rw [List.cons_append] at span
  simp only [bare, List.cons_append, readValue, if_neg (each '[' (by decide)),
    if_neg (each '{' (by decide)), if_neg notString, span, spelled, Option.map_some]

theorem Rereads.string {s content rest : List Char} (depth : Nat)
    (read : readString s = some (content, rest)) :
    (Item.scalar {} (consumed s rest) (.string (String.ofList content))).Rereads depth := by
  obtain ⟨piece, rfl, -, ⟨c, more, rfl, quote⟩, yields⟩ := readString_some read
  rw [consumed_append]
  refine ⟨rfl, .scalar .., ⟨c, more, rfl, by simp [startsValue, quote]⟩,
    fun fuel other enough ends => ?_⟩
  obtain ⟨fuel, rfl⟩ := Nat.exists_eq_succ_of_ne_zero
    (show fuel ≠ 0 by rintro rfl; simp [bare] at enough)
  have again := yields other fun d mem => (ends.head d mem).2
  rw [List.cons_append] at again
  have notArray : c ≠ '[' := by
    rintro rfl
    revert quote
    decide
  have notInline : c ≠ '{' := by
    rintro rfl
    revert quote
    decide
  have isString : c = '"' ∨ c = '\'' := by simpa [isQuote] using quote
  refine ⟨.scalar {} (consumed (c :: (more ++ other)) other)
    (.string (String.ofList content)), ?_, rfl⟩
  simp only [bare, List.cons_append, readValue, if_neg notArray, if_neg notInline, if_pos isString,
    again, Option.bind_eq_bind, Option.bind_some, Option.pure_def]

theorem Rereads.array {items : List Item} {ending : List Char} {depth : Nat}
    (each : ∀ item ∈ items, ArrayItem depth item) (closes : Ending items.isEmpty ending) :
    (Item.array {} items ending).Rereads (depth + 1) := by
  refine ⟨rfl, .array fun item mem => (each item mem).1.distinct, ⟨'[', _, rfl, by decide⟩,
    fun fuel rest enough _ => ?_⟩
  obtain ⟨fuel, rfl⟩ := Nat.exists_eq_succ_of_ne_zero
    (show fuel ≠ 0 by rintro rfl; simp [bare] at enough)
  obtain ⟨again, left, read, shapes⟩ := readItems_texts each closes fuel
    (by simp [bare] at enough ⊢; omega) [] rest
  refine ⟨.array {} again left, ?_, by rw [shape, shape, itemShapes_eq, itemShapes_eq, shapes]⟩
  have split : bare (.array {} items ending) ++ rest =
      '[' :: (Text.joinFields ',' (itemTexts items) ++ ending ++ ']' :: rest) := by
    simp [bare]
  rw [split, readValue, if_pos rfl]
  simp only [if_neg (Nat.succ_ne_zero depth), Nat.add_sub_cancel, read, Option.bind_eq_bind,
    Option.bind_some, Option.pure_def, List.nil_append]

theorem Rereads.inline {members : Members} {ending : List Char} {depth : Nat}
    (sound : members.Sound (Item.Fits Trivia depth)) (plain : ∀ member ∈ members, member.2.Plain)
    (closes : Ending members.isEmpty ending) :
    (Item.inline {} members ending).Rereads (depth + 1) := by
  have below := fun member mem => (sound.items member mem).distinct fun _ fits => fits.1.distinct
  refine ⟨rfl, .inline sound.proper.distinct below, ⟨'{', _, rfl, by decide⟩,
    fun fuel rest enough _ => ?_⟩
  obtain ⟨fuel, rfl⟩ := Nat.exists_eq_succ_of_ne_zero
    (show fuel ≠ 0 by rintro rfl; simp [bare] at enough)
  have fits := lineFits_linesBelow (show ∀ k ∈ ([] : List Key), k.Legible from nofun) members sound
  have fills := fill_linesBelow Fields.empty members sound fun _ _ => rfl
  rw [Fields.orElse_empty, lineShapes_of_plain members plain] at fills
  have isEmpty : (linesBelow [] members).isEmpty = members.isEmpty := by
    cases members with
    | nil => rfl
    | cons member rest =>
      obtain ⟨key, item⟩ := member
      have line : Members.HasLine ((key, item) :: rest) := by
        refine ⟨(key, item), List.mem_cons_self, ?_⟩
        cases plain _ List.mem_cons_self with
        | value value => exact isLine_of_isValue value
        | dotted dotted => exact dotted
      have := linesBelow_ne_nil [] sound line
      cases found : linesBelow [] ((key, item) :: rest) with
      | nil => exact absurd found this
      | cons => rfl
  rw [← isEmpty] at closes
  obtain ⟨again, left, read, shapes⟩ := readMembers_texts fits closes fuel
    (by simp [bare, memberTexts_eq] at enough ⊢; omega) [] fills rest
  refine ⟨.inline {} again left, ?_, by rw [shape, shape, shapes]⟩
  have split : bare (.inline {} members ending) ++ rest =
      '{' :: (Text.joinFields ',' ((linesBelow [] members).map lineText) ++ ending ++ '}' :: rest) := by
    simp [bare, memberTexts_eq]
  rw [split, readValue, if_neg (by decide), if_pos rfl]
  simp only [if_neg (Nat.succ_ne_zero depth), Nat.add_sub_cancel, read, Option.bind_eq_bind,
    Option.bind_some, Option.pure_def]

end Item

/-! ### What was read as a value -/

theorem after?_some {c : Char} {s rest : List Char} (read : after? c s = some rest) :
    s = c :: rest := by
  cases s with
  | nil => cases read
  | cons d s =>
    rw [after?] at read
    split at read
    · next same =>
      cases read
      rw [same]
    · cases read

theorem head?_eq_some {s : List Char} {c : Char} (head : s.head? = some c) : s = c :: s.tail :=
  (List.cons_head?_tail head).symm

theorem readValue_nil (fuel depth : Nat) : readValue fuel depth [] = none := by
  cases fuel <;> rfl

/-- The readers of values, of items and of inline tables read what is read again, with so much
fuel. -/
structure ReadsWell (fuel : Nat) : Prop where
  value : ∀ {depth s item rest}, readValue fuel depth s = some (item, rest) →
    item.Rereads depth ∧ Eats s rest
  items : ∀ {depth done s items ending rest},
    readItems fuel depth done s = some ((items, ending), rest) →
    (∀ item ∈ done, ArrayItem depth item) →
    (∀ item ∈ items, ArrayItem depth item) ∧ Ending items.isEmpty ending ∧ Eats s rest
  members : ∀ {depth done s members ending rest},
    readMembers fuel depth done s = some ((members, ending), rest) →
    Members.Sound (Item.Fits Trivia depth) done → (∀ member ∈ done, member.2.Plain) →
    members.Sound (Item.Fits Trivia depth) ∧ (∀ member ∈ members, member.2.Plain) ∧
      Ending members.isEmpty ending ∧ Eats s rest

namespace ReadsWell

variable {fuel : Nat}

theorem value_succ (well : ReadsWell fuel) {depth : Nat} {s rest : List Char} {item : Item}
    (read : readValue (fuel + 1) depth s = some (item, rest)) :
    item.Rereads depth ∧ Eats s rest := by
  cases s with
  | nil => cases read
  | cons c s =>
    rw [readValue] at read
    split at read
    · next array =>
      subst array
      split at read
      · cases read
      · next deep =>
        obtain ⟨depth, rfl⟩ := Nat.exists_eq_succ_of_ne_zero deep
        simp only [Nat.succ_eq_add_one, Nat.add_sub_cancel, Option.bind_eq_bind,
          Option.bind_eq_some_iff, Prod.exists, Option.pure_def, Option.some.injEq,
          Prod.mk.injEq] at read
        obtain ⟨items, ending, left, readI, rfl, rfl⟩ := read
        obtain ⟨each, closes, eats⟩ := well.items readI nofun
        exact ⟨.array each closes, eats.cons (by decide)⟩
    · split at read
      · next inline =>
        subst inline
        split at read
        · cases read
        · next deep =>
          obtain ⟨depth, rfl⟩ := Nat.exists_eq_succ_of_ne_zero deep
          simp only [Nat.succ_eq_add_one, Nat.add_sub_cancel, Option.bind_eq_bind,
            Option.bind_eq_some_iff, Prod.exists, Option.pure_def, Option.some.injEq,
            Prod.mk.injEq] at read
          obtain ⟨members, ending, left, readM, rfl, rfl⟩ := read
          obtain ⟨sound, plain, closes, eats⟩ := well.members readM .nil (by simp)
          exact ⟨.inline sound plain closes, eats.cons (by decide)⟩
      · split at read
        · simp only [Option.bind_eq_bind, Option.bind_eq_some_iff, Prod.exists, Option.pure_def,
            Option.some.injEq, Prod.mk.injEq] at read
          obtain ⟨content, left, readS, rfl, rfl⟩ := read
          obtain ⟨piece, split, clean, -, -⟩ := readString_some readS
          exact ⟨.string depth readS, piece, split, clean⟩
        · obtain ⟨value, spelled, equal⟩ := Option.map_eq_some_iff.mp read
          cases equal
          obtain ⟨split, clean, head, spans⟩ := spanScalar_append (s := c :: s) rfl
          exact ⟨.scalar spelled head spans, _, split, clean⟩

theorem items_succ (well : ReadsWell fuel) {depth : Nat} {done items : List Item}
    {s ending rest : List Char}
    (read : readItems (fuel + 1) depth done s = some ((items, ending), rest))
    (doneGood : ∀ item ∈ done, ArrayItem depth item) :
    (∀ item ∈ items, ArrayItem depth item) ∧ Ending items.isEmpty ending ∧ Eats s rest := by
  rw [readItems] at read
  simp only [Option.bind_eq_bind, Option.bind_eq_some_iff, Prod.exists] at read
  obtain ⟨before, s₁, readB, read⟩ := read
  obtain ⟨-, -, trivialB, -⟩ := readTrivia_some readB
  have eatsB := eats_readTrivia readB
  split at read
  · next closing =>
    cases read
    have closes := head?_eq_some closing
    have trivial : Trivia before := trivialB (by rw [closes]; simp)
    refine ⟨doneGood, ?_, eatsB.trans ?_⟩
    · rw [Ending]
      split
      · exact trivial
      · exact Or.inr ⟨before, rfl, trivial⟩
    · rw [closes]
      exact (Eats.refl _).cons (by decide)
  · simp only [Option.bind_eq_some_iff, Prod.exists] at read
    obtain ⟨item, s₂, readV, after, s₃, readA, read⟩ := read
    obtain ⟨rereads, eatsV⟩ := well.value readV
    obtain ⟨-, -, trivialA, -⟩ := readTrivia_some readA
    have eats := (eatsB.trans eatsV).trans (eats_readTrivia readA)
    have some₁ : s₁ ≠ [] := by
      rintro rfl
      rw [readValue_nil] at readV
      cases readV
    have good : s₃ ≠ [] → ∀ i ∈ done ++ [item.decorated (.written before after)],
        ArrayItem depth i := by
      intro more
      rw [List.forall_mem_append, List.forall_mem_singleton]
      refine ⟨doneGood, rereads.decorated _, ?_⟩
      rw [Item.decor_decorated rereads.value]
      exact ⟨trivialB some₁, trivialA more⟩
    split at read
    · next comma =>
      have next := head?_eq_some comma
      obtain ⟨each, closes, eatsRest⟩ := well.items read (good (by rw [next]; simp))
      refine ⟨each, closes, eats.trans ?_⟩
      rw [next]
      exact eatsRest.cons (by decide)
    · split at read
      · next closing =>
        cases read
        have closes := head?_eq_some closing
        refine ⟨good (by rw [closes]; simp), by simp [Ending], eats.trans ?_⟩
        rw [closes]
        exact (Eats.refl _).cons (by decide)
      · cases read

theorem members_succ (well : ReadsWell fuel) {depth : Nat} {done members : Members}
    {s ending rest : List Char}
    (read : readMembers (fuel + 1) depth done s = some ((members, ending), rest))
    (sound : done.Sound (Item.Fits Trivia depth)) (plain : ∀ member ∈ done, member.2.Plain) :
    members.Sound (Item.Fits Trivia depth) ∧ (∀ member ∈ members, member.2.Plain) ∧
      Ending members.isEmpty ending ∧ Eats s rest := by
  rw [readMembers] at read
  simp only [Option.bind_eq_bind, Option.bind_eq_some_iff, Prod.exists] at read
  obtain ⟨before, s₁, readB, read⟩ := read
  obtain ⟨-, -, trivialB, -⟩ := readTrivia_some readB
  have eatsB := eats_readTrivia readB
  split at read
  · next closing =>
    cases read
    have closes := head?_eq_some closing
    have trivial : Trivia before := trivialB (by rw [closes]; simp)
    refine ⟨sound, plain, ?_, eatsB.trans ?_⟩
    · rw [Ending]
      split
      · exact trivial
      · exact Or.inr ⟨before, rfl, trivial⟩
    · rw [closes]
      exact (Eats.refl _).cons (by decide)
  · simp only [Option.bind_eq_some_iff, Prod.exists] at read
    obtain ⟨path, leaf, s₂, readR, s₃, equals, item, s₄, readV, after, s₅, readA, defined, defines,
      read⟩ := read
    have some₁ : s₁ ≠ [] := by
      rintro rfl
      cases readR
    obtain ⟨pathGood, leafGood, eatsR⟩ := readRow_some (trivialB some₁) readR
    obtain rfl := after?_some equals
    obtain ⟨rereads, eatsV⟩ := well.value readV
    obtain ⟨-, -, trivialA, -⟩ := readTrivia_some readA
    have eats := (eatsB.trans eatsR).trans (((Eats.takeWhile isBlank_cr s₃).trans
      (eatsV.trans (eats_readTrivia readA))).cons (by decide))
    have good : s₅ ≠ [] → defined.Sound (Item.Fits Trivia depth) ∧ defined ≠ [] := by
      intro more
      have fits : (item.decorated (.written (s₃.takeWhile isBlank) after)).Fits Trivia depth := by
        refine ⟨rereads.decorated _, ?_⟩
        rw [Item.decor_decorated rereads.value]
        exact ⟨blank_takeWhile s₃, trivialA more⟩
      obtain ⟨soundDefined, line⟩ := sound.define leafGood fits.1.value fits pathGood defines
      exact ⟨soundDefined, line.ne_nil⟩
    have plainDefined := plain_define (by rw [Item.isValue_decorated, rereads.value]) plain defines
    split at read
    · next comma =>
      have next := head?_eq_some comma
      obtain ⟨soundAll, plainAll, closes, eatsRest⟩ :=
        well.members read (good (by rw [next]; simp)).1 plainDefined
      refine ⟨soundAll, plainAll, closes, eats.trans ?_⟩
      rw [next]
      exact eatsRest.cons (by decide)
    · split at read
      · next closing =>
        cases read
        have closes := head?_eq_some closing
        obtain ⟨soundDefined, some⟩ := good (by rw [closes]; simp)
        refine ⟨soundDefined, plainDefined, by simp [Ending, some], eats.trans ?_⟩
        rw [closes]
        exact (Eats.refl _).cons (by decide)
      · cases read

end ReadsWell

/-- What was read as a value is read again. -/
theorem readsWell (fuel : Nat) : ReadsWell fuel := by
  induction fuel with
  | zero => exact ⟨nofun, nofun, nofun⟩
  | succ fuel well => exact ⟨well.value_succ, well.items_succ, well.members_succ⟩

end StyleMonitor.Toml
