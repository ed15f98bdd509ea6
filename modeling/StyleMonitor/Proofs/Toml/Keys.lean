import StyleMonitor.Proofs.Toml.Strings

/-!
# Keys and rows of keys

A row of dotted keys is read again with the same names from its text, wherever an equals sign or a
closing bracket follows.
-/

namespace StyleMonitor.Toml

/-! ### Names -/

/-- What can follow a key. -/
def KeyEnd (rest : List Char) : Prop :=
  ∃ c more, rest = c :: more ∧ (isBlank c = true ∨ c = '.' ∨ c = '=' ∨ c = ']')

theorem KeyEnd.of_blank {s : List Char} (blank : Blank s) {c : Char} {rest : List Char}
    (ends : c = '.' ∨ c = '=' ∨ c = ']') : KeyEnd (s ++ c :: rest) := by
  cases s with
  | nil => exact ⟨c, rest, rfl, Or.inr ends⟩
  | cons d s => exact ⟨d, s ++ c :: rest, rfl, Or.inl (blank d List.mem_cons_self)⟩

theorem KeyEnd.head {rest : List Char} (ends : KeyEnd rest) :
    ∀ c ∈ rest.head?, isKeyChar c = false ∧ isQuote c = false := by
  obtain ⟨d, more, rfl, kind⟩ := ends
  rintro c ⟨⟩
  rcases kind with blank | rfl | rfl | rfl
  · simp only [isBlank, Bool.or_eq_true, decide_eq_true_eq] at blank
    rcases blank with rfl | rfl <;> decide
  all_goals decide

/-- What every key is read with: its name and its spelling. -/
def Key.bare (key : Key) : Key :=
  ⟨key.name, key.spelling, {}, {}⟩

/-- Whether the spelling of a key is read as its name. -/
def Key.Spelled (key : Key) : Prop :=
  Yields readName KeyEnd key.spelling key.bare ∧
    ∃ c more, key.spelling = c :: more ∧ (isKeyChar c = true ∨ isQuote c = true)

/-- A string on one line is a key where the end of a key follows. -/
theorem Spells.spelled {piece name : List Char} (spells : Spells piece name)
    (single : ¬ (piece.take 3 = "\"\"\"".toList ∨ piece.take 3 = "'''".toList)) :
    (Key.mk (String.ofList name) piece {} {}).Spelled := by
  obtain ⟨quote, next, more, rfl, isQ⟩ := spells.opens
  refine ⟨fun other ends => ?_, quote, next :: more, rfl, Or.inr isQ⟩
  have stop : ∀ c ∈ other.head?, isQuote c = false := fun c member => (ends.head c member).2
  -- Two quotes that are followed by no third one are not the start of three.
  have single : ¬ ((quote :: next :: more ++ other).take 3 = "\"\"\"".toList ∨
      (quote :: next :: more ++ other).take 3 = "'''".toList) := by
    cases more with
    | cons d more => simpa using single
    | nil =>
      obtain ⟨c, other, rfl, -⟩ := ends
      have notQuote := stop c rfl
      rintro (same | same)
      · obtain ⟨-, -, rfl⟩ : quote = '"' ∧ next = '"' ∧ c = '"' := by simpa using same
        exact absurd notQuote (by decide)
      · obtain ⟨-, -, rfl⟩ : quote = '\'' ∧ next = '\'' ∧ c = '\'' := by simpa using same
        exact absurd notQuote (by decide)
  have head : (quote :: next :: more ++ other).head? = some '"' ∨
      (quote :: next :: more ++ other).head? = some '\'' := by
    simpa using isQuote_iff.mp isQ
  rw [readName, if_pos head, if_neg single, spells.reads stop, Option.map_some]
  simp only [consumed_append]
  rfl

/-- A row of characters of keys is a key where the end of a key follows. -/
theorem Key.spelled_of_chars {name : List Char} (some : name ≠ [])
    (chars : ∀ c ∈ name, isKeyChar c = true) :
    (Key.mk (String.ofList name) name {} {}).Spelled := by
  obtain ⟨c, more, rfl⟩ := List.exists_cons_of_ne_nil some
  have first := chars c List.mem_cons_self
  refine ⟨fun other ends => ?_, c, more, rfl, Or.inl first⟩
  have span := span_append chars fun d member => (ends.head d member).1
  have plain : ¬ ((c :: more ++ other).head? = Option.some '"' ∨
      (c :: more ++ other).head? = Option.some '\'') := by
    rw [List.cons_append, List.head?_cons, Option.some.injEq, Option.some.injEq]
    rintro (rfl | rfl) <;> exact absurd first (by decide)
  simp only [readName, if_neg plain, span.1, span.2]
  rfl

/-- What was read as a name, and what comes after it. -/
theorem readName_some {s rest : List Char} {key : Key} (read : readName s = some (key, rest)) :
    s = key.spelling ++ rest ∧ '\r' ∉ key.spelling ∧ key = key.bare ∧ key.Spelled := by
  rw [readName] at read
  split at read
  · split at read
    · cases read
    · next single =>
      obtain ⟨⟨name, left⟩, readS, equal⟩ := Option.map_eq_some_iff.mp read
      cases equal
      obtain ⟨piece, rfl, spells⟩ := Spells.of_read readS
      rw [consumed_append]
      refine ⟨rfl, spells.clean, rfl, spells.spelled fun triple => single ?_⟩
      -- Three quotes would stand at the start of the whole text as well.
      obtain ⟨quote, next, more, rfl, -⟩ := spells.opens
      cases more with
      | nil => simp at triple
      | cons d more => simpa using triple
  · dsimp only at read
    split at read
    · cases read
    · next some =>
      cases read
      have chars : ∀ c ∈ s.takeWhile isKeyChar, isKeyChar c = true :=
        fun c member => List.mem_takeWhile_imp member
      refine ⟨List.takeWhile_append_dropWhile.symm, fun member => ?_, rfl,
        Key.spelled_of_chars (by simpa using some) chars⟩
      exact absurd (chars _ member) (by decide)

/-! ### Rows -/

/-- Whether a key is read again from its text, and what stands around it as nothing but that. -/
structure Key.Legible (key : Key) : Prop where
  spelled : key.Spelled
  before : isTrivia false (key.outer.before.getD []) = true
  after : Blank (key.outer.after.getD [])
  dottedBefore : Blank (key.dotted.before.getD [])
  dottedAfter : Blank (key.dotted.after.getD [])

/-- The text of a key and of those that come after it in a row. -/
def rowFrom (key : Key) : List Key → List Char
  | [] => key.spelling
  | next :: more =>
    key.spelling ++ key.dotted.after.getD [] ++ '.' :: (next.dotted.before.getD [] ++ rowFrom next more)

/-- The text of the key with a number in a row of so many keys. -/
def rowPiece (total i : Nat) (key : Key) : List Char :=
  (if i = 0 then [] else key.dotted.before.getD []) ++ key.spelling ++
    (if i + 1 = total then [] else key.dotted.after.getD [])

/-- A row from the key with number `start` on. -/
theorem joinFields_rowPieces {total start : Nat} {key : Key} {more : List Key}
    (length : total = start + more.length + 1) :
    Text.joinFields '.' ((key :: more).mapIdx fun i => rowPiece total (start + i)) =
      (if start = 0 then [] else key.dotted.before.getD []) ++ rowFrom key more := by
  induction more generalizing start key with
  | nil =>
    have last : start + 1 = total := by simpa using length.symm
    simp [Text.joinFields_singleton, rowFrom, rowPiece, last]
  | cons next more ih =>
    have later := @ih (start + 1) next (by simp at length; omega)
    have shift : (fun i => rowPiece total (start + (i + 1))) =
        fun i => rowPiece total (start + 1 + i) := by
      funext i
      rw [Nat.add_assoc, Nat.add_comm 1 i]
    have notLast : start + 1 ≠ total := by simp at length; omega
    rw [if_neg (Nat.succ_ne_zero start), List.mapIdx_cons] at later
    rw [List.mapIdx_cons, shift, List.mapIdx_cons, Text.joinFields_cons_cons, later]
    simp [rowPiece, rowFrom, notLast]

theorem rowText_cons (before after : List Char) (key : Key) (more : List Key) :
    rowText before after (key :: more) =
      (((key :: more).getLast?.map Key.outer).getD {}).around before after (rowFrom key more) := by
  have inner := @joinFields_rowPieces (more.length + 1) 0 key more (by omega)
  simp only [Nat.zero_add, if_true, List.nil_append] at inner
  rw [← inner]
  rfl

/-- A key with blanks around it is read up to what follows these. -/
theorem readKey_append {key : Key} (spelled : key.Spelled) {before after : List Char}
    (blankBefore : Blank before) (blankAfter : Blank after) {c : Char} {rest : List Char}
    (ends : c = '.' ∨ c = '=' ∨ c = ']') :
    readKey (before ++ (key.spelling ++ (after ++ c :: rest))) =
      some ((before, key.bare, after), c :: rest) := by
  obtain ⟨yields, d, more, starts, kind⟩ := spelled
  have stop : ∀ e ∈ (key.spelling ++ (after ++ c :: rest)).head?, isBlank e = false := by
    rw [starts]
    rintro e ⟨⟩
    cases blank : isBlank d with
    | false => rfl
    | true =>
      simp only [isBlank, Bool.or_eq_true, decide_eq_true_eq] at blank
      rcases blank with rfl | rfl <;> revert kind <;> decide
  have stop' : ∀ e ∈ (c :: rest).head?, isBlank e = false := by
    rintro e ⟨⟩
    rcases ends with rfl | rfl | rfl <;> decide
  rw [readKey, (blankBefore.span stop).1, (blankBefore.span stop).2,
    yields _ (KeyEnd.of_blank blankAfter ends), Option.map_some]
  simp only [(blankAfter.span stop').1, (blankAfter.span stop').2]

/-- The keys of a row are read one after the other, with their names. -/
theorem readKeysFrom_rowFrom {key : Key} {more : List Key} (legible : ∀ k ∈ key :: more, k.Legible)
    {before after : List Char} (blankBefore : Blank before) (blankAfter : Blank after) {c : Char}
    {rest : List Char} (ends : c = '=' ∨ c = ']') {fuel : Nat} (enough : more.length ≤ fuel) :
    ∃ first s keys, readKey (before ++ (rowFrom key more ++ (after ++ c :: rest))) =
        some (first, s) ∧ readKeysFrom first fuel s = some (keys, c :: rest) ∧
      keys.map (·.2.1.name) = (key :: more).map Key.name := by
  have own := legible key List.mem_cons_self
  induction more generalizing key before fuel with
  | nil =>
    refine ⟨_, _, [(before, key.bare, after)],
      readKey_append own.spelled blankBefore blankAfter (Or.inr ends), ?_, rfl⟩
    have : c ≠ '.' := by rcases ends with rfl | rfl <;> decide
    unfold readKeysFrom
    split
    · next equal => exact absurd (List.cons.inj equal).1 this
    · rfl
  | cons next more ih =>
    obtain ⟨fuel, rfl⟩ := Nat.exists_eq_succ_of_ne_zero (show fuel ≠ 0 by simp at enough; omega)
    have others : ∀ k ∈ next :: more, k.Legible :=
      fun k member => legible k (List.mem_cons_of_mem key member)
    have nextOwn := others next List.mem_cons_self
    obtain ⟨first, s, keys, readFirst, readMore, names⟩ :=
      ih others nextOwn.dottedBefore (show more.length ≤ fuel by simpa using enough) nextOwn
    refine ⟨(before, key.bare, key.dotted.after.getD []), '.' ::
      (next.dotted.before.getD [] ++ (rowFrom next more ++ (after ++ c :: rest))),
      (before, key.bare, key.dotted.after.getD []) :: keys, ?_, ?_, ?_⟩
    · have split : rowFrom key (next :: more) ++ (after ++ c :: rest) =
          key.spelling ++ (key.dotted.after.getD [] ++ '.' ::
            (next.dotted.before.getD [] ++ (rowFrom next more ++ (after ++ c :: rest)))) := by
        simp [rowFrom]
      rw [split]
      exact readKey_append own.spelled blankBefore own.dottedAfter (Or.inl rfl)
    · simp only [readKeysFrom, readFirst, readMore, Option.bind_eq_bind, Option.bind_some,
        Option.pure_def]
    · simpa [Key.bare] using names

theorem length_le_rowFrom (key : Key) (more : List Key) :
    more.length ≤ (rowFrom key more).length := by
  induction more generalizing key with
  | nil => simp
  | cons next more ih =>
    have := ih next
    simp only [rowFrom, List.length_append, List.length_cons]
    omega

/-- A key as it is kept, with its number in a row of so many and with what stands before the
row. -/
def rowKey (before : List Char) (total i : Nat) (piece : List Char × Key × List Char) : Key :=
  { piece.2.1 with
    dotted := .written (if i = 0 then [] else piece.1) (if i + 1 = total then [] else piece.2.2)
    outer := if i + 1 = total then .written before piece.2.2 else {} }

theorem readRow_eq_some {before s rest : List Char} {path : List Key} {leaf : Key} :
    readRow before s = some ((path, leaf), rest) ↔
      ∃ first left keys, readKey s = some (first, left) ∧
        readKeysFrom first s.length left = some (keys, rest) ∧
        path ++ [leaf] = keys.mapIdx (rowKey (before ++ first.1) keys.length) := by
  have parts : ∀ row : List Key, row.getLast? = some leaf → row.dropLast ++ [leaf] = row :=
    fun row last => List.dropLast_append_getLast? leaf last
  constructor
  · intro read
    simp only [readRow, Option.bind_eq_bind, Option.bind_eq_some_iff, Prod.exists, Option.pure_def,
      Option.some.injEq, Prod.mk.injEq] at read
    obtain ⟨lead, k, a, left, readK, keys, rest', readM, leaf', last, ⟨rfl, rfl⟩, rfl⟩ := read
    exact ⟨_, left, keys, readK, readM, parts _ last⟩
  · rintro ⟨first, left, keys, readK, readM, row⟩
    have last : (keys.mapIdx (rowKey (before ++ first.1) keys.length)).getLast? = some leaf := by
      rw [← row, List.getLast?_concat]
    have front : (keys.mapIdx (rowKey (before ++ first.1) keys.length)).dropLast = path := by
      rw [← row, List.dropLast_concat]
    simp only [readRow, readK, readM, Option.bind_eq_bind, Option.bind_some]
    refine Option.bind_eq_some_iff.mpr ⟨leaf, last, ?_⟩
    rw [Option.pure_def, ← front]
    rfl

/-- A row is read with its names up to what follows it and the blanks after it. -/
theorem readRow_rowFrom {key : Key} {more : List Key} (legible : ∀ k ∈ key :: more, k.Legible)
    {lead after : List Char} (blankLead : Blank lead) (blankAfter : Blank after) {c : Char}
    (ends : c = '=' ∨ c = ']') (before rest : List Char) :
    ∃ path leaf, readRow before (lead ++ (rowFrom key more ++ (after ++ c :: rest))) =
        some ((path, leaf), c :: rest) ∧ (path ++ [leaf]).map Key.name = (key :: more).map Key.name := by
  have enough : more.length ≤ (lead ++ (rowFrom key more ++ (after ++ c :: rest))).length := by
    have := length_le_rowFrom key more
    simp only [List.length_append]
    omega
  obtain ⟨first, left, keys, readFirst, readMore, names⟩ :=
    readKeysFrom_rowFrom legible blankLead blankAfter ends enough
  have sameNames : (keys.mapIdx (rowKey (before ++ first.1) keys.length)).map Key.name =
      (key :: more).map Key.name := by
    rw [← names]
    exact List.ext_getElem (by simp) (by simp [rowKey])
  have some : keys.mapIdx (rowKey (before ++ first.1) keys.length) ≠ [] := by
    intro empty
    rw [empty] at sameNames
    cases sameNames
  have parts := List.dropLast_concat_getLast some
  refine ⟨_, _, readRow_eq_some.mpr ⟨first, left, keys, readFirst, readMore, parts⟩, ?_⟩
  rw [parts, sameNames]

/-! ### What was read as a row -/

/-- What is read of a key in a row. -/
def KeyRead (piece : List Char × Key × List Char) : Prop :=
  Blank piece.1 ∧ piece.2.1.Spelled ∧ Blank piece.2.2

theorem readKey_some {s rest : List Char} {piece : List Char × Key × List Char}
    (read : readKey s = some (piece, rest)) : KeyRead piece ∧ Eats s rest := by
  rw [readKey] at read
  obtain ⟨⟨key, left⟩, readN, equal⟩ := Option.map_eq_some_iff.mp read
  cases equal
  obtain ⟨split, clean, -, spelled⟩ := readName_some readN
  refine ⟨⟨blank_takeWhile _, spelled, blank_takeWhile _⟩, ?_⟩
  exact (Eats.takeWhile isBlank_cr s).trans
    (Eats.trans ⟨key.spelling, split, clean⟩ (Eats.takeWhile isBlank_cr left))

theorem readKeysFrom_some {first : List Char × Key × List Char} (firstRead : KeyRead first)
    {fuel : Nat} {s rest : List Char} {keys : List (List Char × Key × List Char)}
    (read : readKeysFrom first fuel s = some (keys, rest)) :
    (∀ key ∈ keys, KeyRead key) ∧ Eats s rest := by
  induction fuel generalizing first s keys with
  | zero =>
    simp only [readKeysFrom, Option.some.injEq, Prod.mk.injEq] at read
    obtain ⟨rfl, rfl⟩ := read
    exact ⟨List.forall_mem_singleton.mpr firstRead, Eats.refl s⟩
  | succ fuel ih =>
    unfold readKeysFrom at read
    split at read
    · next same =>
      cases same
      simp only [Option.bind_eq_bind, Option.bind_eq_some_iff, Prod.exists, Option.pure_def,
        Option.some.injEq, Prod.mk.injEq] at read
      obtain ⟨b, k, a, left, readK, keys', rest', readM, rfl, rfl⟩ := read
      obtain ⟨keyRead, eatsKey⟩ := readKey_some readK
      obtain ⟨others, eats⟩ := ih keyRead readM
      exact ⟨List.forall_mem_cons.mpr ⟨firstRead, others⟩, (eatsKey.trans eats).cons (by decide)⟩
    · cases read
      exact ⟨List.forall_mem_singleton.mpr firstRead, Eats.refl _⟩

/-- A key as it is kept can be read again. -/
theorem KeyRead.legible {piece : List Char × Key × List Char} (read : KeyRead piece)
    {before : List Char} (trivial : isTrivia false before = true) (total i : Nat) :
    (rowKey before total i piece).Legible := by
  obtain ⟨blankBefore, spelled, blankAfter⟩ := read
  refine ⟨spelled, ?_, ?_, ?_, ?_⟩
  · rw [rowKey]
    split
    · exact trivial
    · rfl
  · rw [rowKey]
    split
    · exact blankAfter
    · exact .nil
  · show Blank (if i = 0 then [] else piece.1)
    split
    · exact .nil
    · exact blankBefore
  · show Blank (if i + 1 = total then [] else piece.2.2)
    split
    · exact .nil
    · exact blankAfter

/-- What was read as a row: keys that are legible. -/
theorem readRow_some {before s rest : List Char} {path : List Key} {leaf : Key}
    (trivial : isTrivia false before = true)
    (read : readRow before s = some ((path, leaf), rest)) :
    (∀ key ∈ path, key.Legible) ∧ leaf.Legible ∧ Eats s rest := by
  obtain ⟨first, left, keys, readK, readM, row⟩ := readRow_eq_some.mp read
  obtain ⟨keyRead, eatsKey⟩ := readKey_some readK
  obtain ⟨keysRead, eats⟩ := readKeysFrom_some keyRead readM
  have trivialLead := isTrivia_append trivial keyRead.1.isTrivia
  have legible : ∀ key ∈ path ++ [leaf], key.Legible := by
    rw [row]
    intro key member
    obtain ⟨i, below, rfl⟩ := List.mem_mapIdx.mp member
    exact (keysRead _ (List.getElem_mem below)).legible trivialLead _ _
  exact ⟨fun key member => legible key (List.mem_append_left _ member), legible leaf (by simp),
    eatsKey.trans eats⟩

end StyleMonitor.Toml
