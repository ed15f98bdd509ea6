import StyleMonitor.Proofs.Toml.Order

/-!
# Documents that were read

What is read as a document is sound, its values can be read again, and its headers come in the order
of their numbers.
-/

namespace StyleMonitor.Toml

/-! ### Lines -/

/-- What holds of a line that was read. -/
def Line.Fits : Line → Prop
  | .header _ decor path leaf => Trivia (decor.before.getD []) ∧ LineEnd (decor.after.getD []) ∧
      (∀ key ∈ path, key.Legible) ∧ leaf.Legible
  | .pair path leaf item => (∀ key ∈ path, key.Legible) ∧ leaf.Legible ∧ item.isValue = true ∧
      item.Fits LineEnd maxDepth

theorem eats_after {c : Char} {s rest : List Char} (read : after? c s = some rest) (clean : c ≠ '\r') :
    Eats s rest := by
  rw [after?_some read]
  exact Eats.cons clean (.refl rest)

theorem readHeader_some {trivia s rest : List Char} {line : Line} (trivial : Trivia trivia)
    (read : readHeader trivia s = some (line, rest)) : line.Fits ∧ Eats s rest := by
  rw [readHeader] at read
  by_cases element : s.head? = some '['
  · simp only [element, decide_true, if_true, Option.bind_eq_bind, Option.bind_eq_some_iff,
      Option.pure_def, Option.some.injEq, Prod.mk.injEq, Prod.exists] at read
    obtain ⟨path, leaf, afterRow, readR, inner, close, outer, close', after, left, readE, rfl, rfl⟩ :=
      read
    obtain ⟨legible, leafLegible, eatsRow⟩ := readRow_some rfl readR
    obtain ⟨ends, eatsEnd⟩ := readLineEnd_some readE
    refine ⟨⟨trivial, ends, legible, leafLegible⟩, ?_⟩
    rw [head?_eq_some element]
    exact Eats.cons (by decide) (eatsRow.trans ((eats_after close (by decide)).trans
      ((eats_after close' (by decide)).trans eatsEnd)))
  · simp only [element, decide_false, if_false, Option.bind_eq_bind,
      Option.bind_eq_some_iff, Option.pure_def, Option.some.injEq, Prod.mk.injEq,
      Prod.exists] at read
    obtain ⟨path, leaf, afterRow, readR, _, close, _, rfl, after, left, readE, rfl, rfl⟩ := read
    obtain ⟨legible, leafLegible, eatsRow⟩ := readRow_some rfl readR
    obtain ⟨ends, eatsEnd⟩ := readLineEnd_some readE
    refine ⟨⟨trivial, ends, legible, leafLegible⟩, ?_⟩
    exact eatsRow.trans ((eats_after close (by decide)).trans eatsEnd)

theorem readPair_some {trivia s rest : List Char} {line : Line} (trivial : Trivia trivia)
    (read : readPair trivia s = some (line, rest)) : line.Fits ∧ Eats s rest := by
  simp only [readPair, Option.bind_eq_bind, Option.bind_eq_some_iff, Option.pure_def,
    Option.some.injEq, Prod.mk.injEq, Prod.exists] at read
  obtain ⟨path, leaf, afterRow, readR, value, equals, item, afterValue, readV, after, left, readE,
    rfl, rfl⟩ := read
  obtain ⟨legible, leafLegible, eatsRow⟩ := readRow_some trivial readR
  obtain ⟨rereads, eatsValue⟩ := (readsWell _).value readV
  obtain ⟨ends, eatsEnd⟩ := readLineEnd_some readE
  refine ⟨⟨legible, leafLegible,
    by rw [Item.isValue_decorated, rereads.value], rereads.decorated _, ?_⟩, ?_⟩
  · rw [Item.decor_decorated rereads.value]
    exact ⟨blank_takeWhile value, ends⟩
  · exact eatsRow.trans ((eats_after equals (by decide)).trans
      ((Eats.takeWhile isBlank_cr value).trans (eatsValue.trans eatsEnd)))

/-- What comes after the last line of a document has nothing that could be read. -/
theorem trailing_of_readTrivia {s trivia : List Char} (read : readTrivia false s = some (trivia, [])) :
    Trailing trivia := by
  have := (readTrivia_some read).1
  rw [List.append_nil] at this
  rwa [this] at read

theorem readLinesOf_some {fuel : Nat} {s trailing : List Char} {lines : List Line}
    (read : readLinesOf fuel s = some (lines, trailing)) :
    (∀ line ∈ lines, line.Fits) ∧ Trailing trailing ∧ '\r' ∉ s := by
  induction fuel generalizing s lines with
  | zero => cases read
  | succ fuel ih =>
    rw [readLinesOf] at read
    simp only [Option.bind_eq_bind, Option.bind_eq_some_iff, Prod.exists] at read
    obtain ⟨trivia, rest, readT, read⟩ := read
    cases rest with
    | nil =>
      cases read
      exact ⟨by simp, trailing_of_readTrivia readT, (eats_readTrivia readT).clean⟩
    | cons c rest =>
      have trivial := (readTrivia_some readT).2.2.1 (List.cons_ne_nil _ _)
      have step : ∀ {line left}, line.Fits ∧ Eats (c :: rest) left →
          ((readLinesOf fuel left).bind fun found => some (line :: found.1, found.2)) =
            some (lines, trailing) →
          (∀ line ∈ lines, line.Fits) ∧ Trailing trailing ∧ '\r' ∉ s := by
        rintro line left ⟨own, eats⟩ read
        simp only [Option.bind_eq_some_iff, Option.some.injEq, Prod.mk.injEq, Prod.exists] at read
        obtain ⟨more, trailing, readMore, rfl, rfl⟩ := read
        obtain ⟨fits, trails, clean⟩ := ih readMore
        obtain ⟨piece, whole, cleanPiece⟩ := (eats_readTrivia readT).trans eats
        refine ⟨List.forall_mem_cons.mpr ⟨own, fits⟩, trails, ?_⟩
        rw [whole, List.mem_append, not_or]
        exact ⟨cleanPiece, clean⟩
      by_cases bracket : c = '['
      · simp only [if_pos bracket, Option.pure_def] at read
        obtain ⟨⟨line, left⟩, readH, readMore⟩ := Option.bind_eq_some_iff.mp read
        obtain ⟨own, eats⟩ := readHeader_some trivial readH
        exact step ⟨own, Eats.cons (by rw [bracket]; decide) eats⟩ readMore
      · simp only [if_neg bracket, Option.pure_def] at read
        obtain ⟨⟨line, left⟩, readP, readMore⟩ := Option.bind_eq_some_iff.mp read
        exact step (readPair_some trivial readP) readMore

/-! ### Headers in order -/

/-- Whether the numbers of all headers below a table lie between two numbers, in order. -/
def Members.Dated (first last : Nat) (members : Members) : Prop :=
  ∀ member ∈ members, member.2.Dated first last

namespace Members.Dated

variable {first last : Nat} {members : Members}

theorem nil (first last : Nat) : Members.Dated first last [] := nofun

theorem mono (dated : members.Dated first last) {later : Nat} (after : last ≤ later) :
    members.Dated first later :=
  fun member mem => (dated member mem).mono after

theorem get? (dated : members.Dated first last) {name : String} {item : Item}
    (found : members.get? name = some item) : item.Dated first last := by
  obtain ⟨key, mem, -⟩ := mem_of_get? found
  exact dated _ mem

theorem append (dated : members.Dated first last) {item : Item} (own : item.Dated first last)
    (key : Key) : Members.Dated first last (members ++ [(key, item)]) :=
  List.forall_mem_append.mpr ⟨dated, List.forall_mem_singleton.mpr own⟩

theorem set (dated : members.Dated first last) {key : Key} {old item : Item}
    (found : members.get? key.name = some old) (own : item.Dated first last) :
    Members.Dated first last (members.set key item) := by
  intro member mem
  rcases mem_set found mem with kept | ⟨-, changed⟩
  · exact dated member kept
  · rw [changed]
    exact own

theorem erase (dated : members.Dated first last) (name : String) :
    Members.Dated first last (members.erase name) :=
  fun member mem => dated member (List.mem_filter.mp mem).1

/-- A line has no number. -/
theorem define {leaf : Key} {item : Item} (value : item.isValue = true) {path : List Key}
    (dated : members.Dated first last) {defined : Members}
    (result : members.define leaf item path = some defined) : defined.Dated first last := by
  induction path generalizing members defined with
  | nil =>
    rw [Members.define] at result
    split at result
    · cases result
      exact dated.append (.value value) leaf
    · cases result
  | cons key path ih =>
    rw [Members.define] at result
    split at result
    · simp only [Option.map_eq_some_iff] at result
      obtain ⟨below, readBelow, rfl⟩ := result
      exact dated.append (.table (by simp [Heading.ofDots]) (ih (nil _ _) readBelow)) key
    · next heading below found =>
      split at result
      · simp only [Option.map_eq_some_iff] at result
        obtain ⟨below', readBelow, rfl⟩ := result
        cases dated.get? found with
        | value no => cases no
        | table position datedBelow =>
          exact dated.set found (.table position (ih datedBelow readBelow))
      · cases result
    · cases result

/-- The header of a table has the last number. -/
theorem openTable (dated : members.Dated first last) {key : Key} {heading : Heading} {number : Nat}
    (position : heading.position = some number) (from_ : first ≤ number) (after : last ≤ number)
    {fill : Members → Option Members}
    (fills : ∀ ⦃members filled⦄, members.Dated first last → fill members = some filled →
      filled.Dated first last) {opened : Members}
    (result : members.openTable key heading fill = some opened) : opened.Dated first number := by
  have table : ∀ {filled : Members}, filled.Dated first last →
      (Item.table heading filled).Dated first number := by
    intro filled datedFilled
    refine .table (fun n mem => ?_) (datedFilled.mono after)
    rw [position] at mem
    cases mem
    exact ⟨from_, Nat.le_refl _⟩
  rw [Members.openTable] at result
  split at result
  · simp only [Option.map_eq_some_iff] at result
    obtain ⟨filled, readBelow, rfl⟩ := result
    exact (dated.mono after).append (table (fills (nil _ _) readBelow)) key
  · next old below found =>
    split at result
    · simp only [Option.map_eq_some_iff] at result
      obtain ⟨filled, readBelow, rfl⟩ := result
      cases dated.get? found with
      | value no => cases no
      | table _ datedBelow =>
        exact ((dated.mono after).erase key.name).append (table (fills datedBelow readBelow)) key
    · cases result
  · cases result

/-- The last element of an array of tables has the last number. -/
theorem addTable (dated : members.Dated first last) {key : Key} {heading : Heading} {number : Nat}
    (position : heading.position = some number) (from_ : first ≤ number) (after : last ≤ number)
    {fill : Members → Option Members}
    (fills : ∀ ⦃filled⦄, fill [] = some filled → filled.Dated number number) {added : Members}
    (result : members.addTable key heading fill = some added) : added.Dated first number := by
  rw [Members.addTable] at result
  split at result
  · simp only [Option.map_eq_some_iff] at result
    obtain ⟨filled, readBelow, rfl⟩ := result
    exact (dated.mono after).append
      (.element .empty position from_ after (Nat.le_refl _) (fills readBelow)) key
  · next elements found =>
    simp only [Option.map_eq_some_iff] at result
    obtain ⟨filled, readBelow, rfl⟩ := result
    exact (dated.mono after).set found
      (.element (dated.get? found) position from_ after (Nat.le_refl _) (fills readBelow))
  · cases result

/-- A header with the last number at the end of a row is one at its start. -/
theorem within {number : Nat} {change : Members → Option Members}
    (changes : ∀ ⦃first last members changed⦄, first ≤ number → last ≤ number →
      Members.Dated first last members → change members = some changed →
      Members.Dated first number changed)
    (dated : members.Dated first last) (from_ : first ≤ number) (after : last ≤ number)
    {path : List Key} {changed : Members} (result : members.within change path = some changed) :
    changed.Dated first number := by
  induction path generalizing first last members changed with
  | nil => exact changes from_ after dated result
  | cons key path ih =>
    rw [Members.within] at result
    split at result
    · simp only [Option.map_eq_some_iff] at result
      obtain ⟨below, readBelow, rfl⟩ := result
      exact (dated.mono after).append
        (.table (by simp [Heading.mentioned]) (ih (nil first last) from_ after readBelow)) key
    · next heading below found =>
      simp only [Option.map_eq_some_iff] at result
      obtain ⟨below', readBelow, rfl⟩ := result
      cases dated.get? found with
      | value no => cases no
      | table position datedBelow =>
        refine (dated.mono after).set found (.table (fun n mem => ?_) (ih datedBelow from_ after readBelow))
        exact ⟨(position n mem).1, Nat.le_trans (position n mem).2 after⟩
    · next elements found =>
      split at result
      · cases result
      · next heading below isLast =>
        simp only [Option.map_eq_some_iff] at result
        obtain ⟨below', readBelow, rfl⟩ := result
        have datedOld := dated.get? found
        refine (dated.mono after).set found ?_
        cases datedOld with
        | value no => cases no
        | empty => cases isLast
        | element before position from_' middle upTo datedBelow =>
          rw [List.getLast?_concat] at isLast
          cases isLast
          rw [List.dropLast_concat]
          have upTo := Nat.le_trans upTo after
          exact .element before position from_' middle upTo (ih datedBelow upTo after readBelow)
    · cases result

end Members.Dated

/-! ### Headers with the lines below them -/

/-- What holds of a header with the lines below it, read with a number. -/
structure Part.Fits (part : Part) (number : Nat) : Prop where
  header : (Line.header part.element part.heading.decor part.path part.leaf).Fits
  own : part.heading.implicit = false
  plain : part.heading.dotted = false
  position : part.heading.position = some number
  pairs : ∀ pair ∈ part.pairs, (Line.pair pair.1 pair.2.1 pair.2.2).Fits

/-- What holds of headers with the lines below them, read with numbers from one on. -/
def PartsFit : Nat → List Part → Prop
  | _, [] => True
  | number, part :: rest => part.Fits number ∧ PartsFit (number + 1) rest

theorem fits_group {lines : List Line} (fits : ∀ line ∈ lines, line.Fits) (number : Nat) :
    (∀ pair ∈ (group number lines).1, (Line.pair pair.1 pair.2.1 pair.2.2).Fits) ∧
      PartsFit number (group number lines).2 := by
  induction lines generalizing number with
  | nil => exact ⟨nofun, trivial⟩
  | cons line lines ih =>
    rw [List.forall_mem_cons] at fits
    cases line with
    | pair path leaf item =>
      obtain ⟨pairs, parts⟩ := ih fits.2 number
      exact ⟨List.forall_mem_cons.mpr ⟨fits.1, pairs⟩, parts⟩
    | header element decor path leaf =>
      obtain ⟨pairs, parts⟩ := ih fits.2 (number + 1)
      exact ⟨nofun, ⟨fits.1, rfl, rfl, rfl, pairs⟩, parts⟩

/-- What holds of the values on the lines of a document. -/
abbrev Item.OnLine : Item → Prop :=
  Item.Fits LineEnd maxDepth

theorem fill_cons (line : List Key × Key × Item) (lines : List (List Key × Key × Item))
    (members : Members) :
    fill (line :: lines) members =
      (members.define line.2.1 line.2.2 line.1).bind (fill lines) := rfl

theorem sound_fill {pairs : List (List Key × Key × Item)}
    (fits : ∀ pair ∈ pairs, (Line.pair pair.1 pair.2.1 pair.2.2).Fits) {members filled : Members}
    (sound : members.Sound Item.OnLine) (result : fill pairs members = some filled) :
    filled.Sound Item.OnLine := by
  induction pairs generalizing members with
  | nil =>
    cases result
    exact sound
  | cons pair pairs ih =>
    rw [List.forall_mem_cons] at fits
    obtain ⟨legible, leaf, value, good⟩ := fits.1
    rw [fill_cons, Option.bind_eq_some_iff] at result
    obtain ⟨defined, define, result⟩ := result
    exact ih fits.2 (sound.define leaf value good legible define).1 result

theorem dated_fill {pairs : List (List Key × Key × Item)}
    (fits : ∀ pair ∈ pairs, (Line.pair pair.1 pair.2.1 pair.2.2).Fits) {members filled : Members}
    {first last : Nat} (dated : members.Dated first last)
    (result : fill pairs members = some filled) : filled.Dated first last := by
  induction pairs generalizing members with
  | nil =>
    cases result
    exact dated
  | cons pair pairs ih =>
    rw [List.forall_mem_cons] at fits
    obtain ⟨-, -, value, -⟩ := fits.1
    rw [fill_cons, Option.bind_eq_some_iff] at result
    obtain ⟨defined, define, result⟩ := result
    exact ih fits.2 (dated.define value define) result

namespace Part.Fits

variable {part : Part} {number : Nat}

theorem sound_addTo (fits : part.Fits number) {top added : Members}
    (sound : top.Sound Item.OnLine) (result : part.addTo top = some added) :
    added.Sound Item.OnLine := by
  obtain ⟨before, after, path, leaf⟩ := fits.header
  have numbered : part.heading.position.isSome = true := by rw [fits.position]; rfl
  rw [Part.addTo] at result
  refine (Members.adds_within ?_ path sound result).1
  cases part.element with
  | true =>
    exact Members.adds_addTable leaf before after fits.own fits.plain numbered
      fun _ _ sound result => sound_fill fits.pairs sound result
  | false =>
    exact Members.adds_openTable leaf before after fits.own fits.plain numbered
      fun _ _ sound result => sound_fill fits.pairs sound result

theorem dated_addTo (fits : part.Fits number) {top added : Members} {first last : Nat}
    (dated : top.Dated first last) (from_ : first ≤ number) (after : last ≤ number)
    (result : part.addTo top = some added) : added.Dated first number := by
  rw [Part.addTo] at result
  refine Members.Dated.within ?_ dated from_ after result
  intro first last members changed from_ after dated result
  cases element : part.element with
  | true =>
    rw [element, if_pos rfl] at result
    exact dated.addTable fits.position from_ after
      (fun _ result => dated_fill fits.pairs (.nil _ _) result) result
  | false =>
    rw [element, if_neg (by decide)] at result
    exact dated.openTable fits.position from_ after
      (fun _ _ dated result => dated_fill fits.pairs dated result) result

end Part.Fits

theorem parts_addTo {parts : List Part} {number : Nat} (fits : PartsFit number parts)
    {top added : Members} (sound : top.Sound Item.OnLine) {last : Nat} (dated : top.Dated 0 last)
    (after : last ≤ number) (result : parts.foldlM (fun top part => part.addTo top) top = some added) :
    added.Sound Item.OnLine ∧ ∃ last, added.Dated 0 last := by
  induction parts generalizing number top last with
  | nil =>
    cases result
    exact ⟨sound, last, dated⟩
  | cons part parts ih =>
    obtain ⟨own, others⟩ := fits
    rw [List.foldlM_cons, Option.bind_eq_bind, Option.bind_eq_some_iff] at result
    obtain ⟨between, add, result⟩ := result
    exact ih others (own.sound_addTo sound add) (own.dated_addTo dated (Nat.zero_le _) after add)
      (Nat.le_succ number) result

/-! ### Documents -/

/-- What holds of a document that was read. -/
structure Document.Sound (document : Document) : Prop where
  top : document.top.Sound Item.OnLine
  dated : ∃ last, document.top.Dated 0 last
  trailing : Trailing document.trailing

namespace Document

/-- The tree of a document from its lines. -/
def ofLines? (lines : List Line) : Option Members :=
  let (pairs, parts) := group 1 lines
  (fill pairs []).bind (parts.foldlM fun top part => part.addTo top)

/-- A text without the mark of its byte order. -/
def unmarked : List Char → List Char
  | '\uFEFF' :: rest => rest
  | s => s

theorem ofText?_eq (text : String) :
    ofText? text =
      (readLinesOf ((unmarked text.toList).length + 1) (normal (unmarked text.toList))).bind
        fun (lines, trailing) => (ofLines? lines).map fun top => ⟨top, trailing⟩ := by
  rw [ofText?]
  show (readLinesOf ((unmarked text.toList).length + 1) (normal (unmarked text.toList))).bind _ = _
  congr 1
  funext ⟨lines, trailing⟩
  show Option.bind (fill (group 1 lines).1 []) (fun top => Option.bind _ _) =
    Option.map _ (Option.bind (fill (group 1 lines).1 []) _)
  cases fill (group 1 lines).1 [] with
  | none => rfl
  | some top =>
    rw [Option.bind_some, Option.bind_some, Option.map_eq_bind]
    rfl

theorem sound_of_ofText? {text : String} {document : Document}
    (read : ofText? text = some document) : document.Sound := by
  simp only [ofText?_eq, Option.bind_eq_some_iff, Option.map_eq_some_iff, Prod.exists] at read
  obtain ⟨lines, trailing, readL, top, tree, rfl⟩ := read
  obtain ⟨fits, trails, -⟩ := readLinesOf_some readL
  obtain ⟨pairs, parts⟩ := fits_group fits 1
  obtain ⟨_, filled, added⟩ := Option.bind_eq_some_iff.mp tree
  obtain ⟨sound, last, dated⟩ := parts_addTo parts (sound_fill pairs .nil filled)
    (dated_fill pairs (.nil 0 0) filled) (Nat.zero_le 1) added
  exact ⟨sound, ⟨last, dated⟩, trails⟩

end Document

end StyleMonitor.Toml
