import StyleMonitor.Proofs.Toml.Trivia

/-!
# Strings

Beside the readers of strings stands their grammar: it relates the text of a string, up to its
closing quotes, to the content. What is read is a text of the grammar, and such a text is read
again whatever follows it, if that is not another quote.
-/

namespace StyleMonitor.Toml

variable {c quote : Char} {s piece content rest : List Char} {fuel : Nat}

/-! ### Escapes -/

/-- Whether a character is passed over where a backslash joins two lines. -/
def isJoined (c : Char) : Bool :=
  isBlank c || c = '\n'

/-- The text after a backslash and what it stands for, before a text that starts with `next?`. -/
inductive Escape (multiline : Bool) (next? : Option Char) : List Char → List Char → Prop
  | simple {c plain : Char} (found : simpleEscape? c = some plain) :
      Escape multiline next? [c] [plain]
  | number {c plain : Char} {digits : List Char} (letter : simpleEscape? c = none)
      (width : hexWidth? c = some digits.length) (hex : ofHex? digits = some plain) :
      Escape multiline next? (c :: digits) [plain]
  | joining {blanks space : List Char} (lines : multiline = true) (blank : Blank blanks)
      (joined : ∀ c ∈ space, isJoined c = true) (stop : ∀ c ∈ next?, isJoined c = false) :
      Escape multiline next? (blanks ++ '\n' :: space) []

variable {multiline : Bool} {next? : Option Char} {plain : List Char}

theorem ofHex?_clean {digits : List Char} (read : ofHex? digits = some c) : '\r' ∉ digits := by
  intro member
  rw [ofHex?] at read
  have fails : digits.mapM Json.hexValue? = none := by
    obtain ⟨before, after, rfl⟩ := List.append_of_mem member
    simp [List.mapM_append, show Json.hexValue? '\r' = none by decide]
  rw [fails] at read
  cases read

theorem Escape.clean (escape : Escape multiline next? piece plain) : '\r' ∉ piece := by
  cases escape with
  | simple found =>
    rintro (_ | ⟨_, ⟨⟩⟩)
    cases found
  | number letter width hex =>
    rintro (_ | ⟨_, member⟩)
    · cases width
    · exact ofHex?_clean hex member
  | joining _ blank joined _ =>
    intro member
    rcases List.mem_append.mp member with member | member
    · exact absurd (blank _ member) (by decide)
    · rcases List.mem_cons.mp member with same | member
      · exact absurd same (by decide)
      · exact absurd (joined _ member) (by decide)

/-- The first character of a joining escape decides that it is neither of the other escapes. -/
theorem no_letter_of_isJoined (joined : isJoined c = true) :
    simpleEscape? c = none ∧ hexWidth? c = none := by
  simp only [isJoined, isBlank, Bool.or_eq_true, decide_eq_true_eq] at joined
  rcases joined with (rfl | rfl) | rfl <;> exact ⟨rfl, rfl⟩

theorem Escape.reads (escape : Escape multiline rest.head? piece plain) :
    readEscape multiline (piece ++ rest) = some (plain, rest) := by
  cases escape with
  | simple found => simp only [List.singleton_append, readEscape, found]
  | @number _ _ digits letter width hex =>
    have taken : (digits ++ rest).take digits.length = digits := List.take_left' rfl
    simp only [List.cons_append, readEscape, letter, width, taken, hex, List.drop_left,
      Nat.lt_irrefl, if_false, Option.map_some]
  | @joining blanks space lines blank joined stop =>
    have skipped : (blanks ++ '\n' :: space ++ rest).dropWhile isBlank = '\n' :: space ++ rest := by
      rw [List.append_assoc]
      exact (blank.span (by rintro _ ⟨⟩; decide)).2
    have all : ∀ d ∈ '\n' :: space, isJoined d = true := by
      rintro d (_ | ⟨_, member⟩)
      · decide
      · exact joined d member
    obtain ⟨c, t, first, start⟩ : ∃ c t, blanks ++ '\n' :: space = c :: t ∧ isJoined c = true := by
      cases blanks with
      | nil => exact ⟨'\n', space, rfl, by decide⟩
      | cons c blanks => exact ⟨c, _, rfl, by simp [isJoined, blank c List.mem_cons_self]⟩
    obtain ⟨letter, width⟩ := no_letter_of_isJoined start
    rw [first, List.cons_append] at skipped ⊢
    simp only [readEscape, letter, width, skipped, lines, List.cons_append, List.head?_cons,
      and_self, if_true]
    exact congrArg (fun left => some ([], left)) (span_append all stop).2

theorem Escape.of_read (read : readEscape multiline s = some (plain, rest)) :
    ∃ piece, s = piece ++ rest ∧ Escape multiline rest.head? piece plain := by
  cases s with
  | nil => cases read
  | cons c s =>
    rw [readEscape] at read
    split at read
    · next found =>
      cases read
      exact ⟨[c], rfl, .simple found⟩
    · next width letter found =>
      split at read
      · cases read
      · next long =>
        obtain ⟨d, hex, equal⟩ := Option.map_eq_some_iff.mp read
        cases equal
        have length : (s.take width).length = width := by
          have := List.length_take_le width s
          omega
        exact ⟨c :: s.take width, by simp, .number letter (by rw [length, found]) hex⟩
    · dsimp only at read
      split at read
      · next joins =>
        obtain ⟨rfl, left⟩ :
            [] = plain ∧ ((c :: s).dropWhile isBlank).dropWhile isJoined = rest := by
          cases read
          exact ⟨rfl, rfl⟩
        obtain ⟨more, later⟩ := List.head?_eq_some_iff.mp joins.2
        rw [later, List.dropWhile_cons_of_pos (by decide)] at left
        subst left
        refine ⟨(c :: s).takeWhile isBlank ++ '\n' :: more.takeWhile isJoined, ?_,
          .joining joins.1 (blank_takeWhile _) (fun _ => List.mem_takeWhile_imp)
            (head?_dropWhile isJoined more)⟩
        rw [List.append_assoc, List.cons_append, List.takeWhile_append_dropWhile, ← later,
          List.takeWhile_append_dropWhile]
      · cases read

/-! ### Strings on one line -/

/-- What can open and close a string. -/
def isQuote (c : Char) : Bool :=
  c = '"' || c = '\''

theorem isQuote_ne_cr (quote : isQuote c = true) : c ≠ '\r' := by
  rintro rfl
  revert quote
  decide

/-- The text of a string on one line, up to and with its closing quote, and its content. -/
inductive Inline (quote : Char) : List Char → List Char → Prop
  | close : Inline quote [quote] []
  | escape {piece plain after content : List Char} (basic : quote = '"')
      (escape : Escape false after.head? piece plain) (goes : Inline quote after content) :
      Inline quote ('\\' :: (piece ++ after)) (plain ++ content)
  | plain {c : Char} {after content : List Char} (other : c ≠ quote)
      (literal : ¬ (c = '\\' ∧ quote = '"')) (allowed : isControl c = false)
      (goes : Inline quote after content) : Inline quote (c :: after) (c :: content)

theorem exists_step (enough : (c :: s).length ≤ fuel) :
    ∃ less, fuel = less + 1 ∧ s.length ≤ less := by
  cases fuel with
  | zero => simp at enough
  | succ less => exact ⟨less, rfl, by simpa using enough⟩

namespace Inline

theorem ne_nil (inline : Inline quote piece content) : piece ≠ [] := by
  cases inline <;> simp

theorem clean (isQuote : isQuote quote = true) (inline : Inline quote piece content) :
    '\r' ∉ piece := by
  induction inline with
  | close => simpa using (isQuote_ne_cr isQuote).symm
  | escape _ escape _ ih => simp [escape.clean, ih]
  | plain _ _ allowed _ ih =>
    rintro (_ | ⟨_, member⟩)
    · exact absurd allowed (by decide)
    · exact ih member

/-- A first quote closes the string. -/
theorem cases_first (inline : Inline quote piece content) :
    (piece = [quote] ∧ content = []) ∨ ∃ c d more, piece = c :: d :: more ∧ c ≠ quote := by
  cases inline with
  | close => exact .inl ⟨rfl, rfl⟩
  | @escape piece _ after _ basic _ goes =>
    obtain ⟨d, more, equal⟩ := List.exists_cons_of_ne_nil
      (List.append_ne_nil_of_right_ne_nil piece goes.ne_nil)
    exact .inr ⟨'\\', d, more, by rw [equal], by rw [basic]; decide⟩
  | @plain c _ _ other _ _ goes =>
    obtain ⟨d, more, rfl⟩ := List.exists_cons_of_ne_nil goes.ne_nil
    exact .inr ⟨c, d, more, rfl, other⟩

theorem reads (inline : Inline quote piece content) (enough : piece.length ≤ fuel) :
    readLine quote fuel (piece ++ rest) = some (content, rest) := by
  induction inline generalizing fuel with
  | close =>
    obtain ⟨fuel, rfl, -⟩ := exists_step enough
    simp [readLine]
  | @escape piece plain after content basic escape goes ih =>
    obtain ⟨fuel, rfl, less⟩ := exists_step enough
    have less : after.length ≤ fuel := by simp at less; omega
    have head : (after ++ rest).head? = after.head? :=
      List.head?_append_of_ne_nil after goes.ne_nil
    rw [← head] at escape
    subst basic
    simp only [List.cons_append, List.append_assoc, readLine, escape.reads, ih less,
      Option.bind_eq_bind, Option.bind_some, Option.pure_def]
    rfl
  | plain other literal allowed _ ih =>
    obtain ⟨fuel, rfl, less⟩ := exists_step enough
    simp only [List.cons_append, readLine, if_neg other, if_neg literal, allowed, ih less,
      Bool.false_eq_true, if_false, Option.map_some]

theorem of_read (read : readLine quote fuel s = some (content, rest)) :
    ∃ piece, s = piece ++ rest ∧ Inline quote piece content := by
  induction fuel generalizing s content with
  | zero => cases read
  | succ fuel ih =>
    cases s with
    | nil => cases read
    | cons c s =>
      rw [readLine] at read
      split at read
      · next closes =>
        cases read
        exact ⟨[c], rfl, closes ▸ .close⟩
      · next other =>
        split at read
        · next found =>
          simp only [Option.bind_eq_bind, Option.bind_eq_some_iff, Prod.exists, Option.pure_def,
            Option.some.injEq, Prod.mk.injEq] at read
          obtain ⟨plain, s', readE, later, rest', readL, rfl, rfl⟩ := read
          obtain ⟨piece, rfl, escape⟩ := Escape.of_read readE
          obtain ⟨after, rfl, goes⟩ := ih readL
          rw [List.head?_append_of_ne_nil after goes.ne_nil] at escape
          exact ⟨c :: (piece ++ after), by simp, found.1 ▸ .escape found.2 escape goes⟩
        · next literal =>
          split at read
          · cases read
          · next allowed =>
            obtain ⟨⟨later, rest'⟩, readL, equal⟩ := Option.map_eq_some_iff.mp read
            cases equal
            obtain ⟨after, rfl, goes⟩ := ih readL
            exact ⟨c :: after, rfl, .plain other literal (by simpa using allowed) goes⟩

end Inline

/-! ### Strings on several lines -/

/-- How many quotes stand at the start of a text, up to five. -/
def opening (quote : Char) (s : List Char) : List Char :=
  (s.take 5).takeWhile (· = quote)

/-- Quotes that close a string are all taken if there are five of them or no other follows. -/
theorem opening_replicate {count : Nat} (few : count ≤ 5)
    (stop : count < 5 → rest.head? ≠ some quote) :
    opening quote (List.replicate count quote ++ rest) = List.replicate count quote := by
  rw [opening, List.take_append, List.take_of_length_le (by simpa using few),
    List.length_replicate,
    List.takeWhile_append_of_pos (by simp +contextual [List.mem_replicate])]
  cases Nat.lt_or_eq_of_le few with
  | inl less =>
    have stop := stop less
    obtain ⟨gap, equal⟩ := Nat.exists_eq_succ_of_ne_zero (show 5 - count ≠ 0 by omega)
    rw [equal]
    cases rest with
    | nil => simp
    | cons c rest =>
      have : c ≠ quote := by simpa using stop
      simp [this]
  | inr equal => simp [equal]

theorem opening_eq_replicate (quote : Char) (s : List Char) :
    opening quote s = List.replicate (opening quote s).length quote := by
  rw [List.eq_replicate_iff]
  exact ⟨rfl, fun d member => by simpa using List.mem_takeWhile_imp member⟩

theorem opening_isPrefix (quote : Char) (s : List Char) : opening quote s <+: s :=
  (List.takeWhile_prefix _).trans (List.take_prefix 5 s)

theorem length_opening_le (quote : Char) (s : List Char) : (opening quote s).length ≤ 5 :=
  ((List.takeWhile_prefix _).length_le).trans (List.length_take_le 5 s)

theorem length_opening_lt_iff :
    (opening quote s).length < 3 ↔ ¬ [quote, quote, quote] <+: s := by
  match s with
  | [] => simp [opening]
  | [a] => by_cases first : a = quote <;> simp [opening, first]
  | [a, b] =>
    by_cases first : a = quote <;> by_cases second : b = quote <;>
      simp [opening, first, second]
  | a :: b :: c :: s =>
    by_cases first : a = quote <;> by_cases second : b = quote <;> by_cases third : c = quote <;>
      simp [opening, first, second, third, eq_comm (a := quote)]

/-- The text of a string on several lines, up to and with its closing quotes, and its content. Up
to two quotes may stand directly before the three that close it. -/
inductive Spread (quote : Char) : List Char → List Char → Prop
  | close {more : Nat} (few : more ≤ 2) :
      Spread quote (List.replicate (more + 3) quote) (List.replicate more quote)
  | quote {after content : List Char} (early : ¬ [quote, quote, quote] <+: quote :: after)
      (goes : Spread quote after content) : Spread quote (quote :: after) (quote :: content)
  | escape {piece plain after content : List Char} (basic : quote = '"')
      (escape : Escape true after.head? piece plain) (goes : Spread quote after content) :
      Spread quote ('\\' :: (piece ++ after)) (plain ++ content)
  | plain {c : Char} {after content : List Char} (other : c ≠ quote)
      (literal : ¬ (c = '\\' ∧ quote = '"')) (allowed : ¬ (isControl c ∧ c ≠ '\n'))
      (goes : Spread quote after content) : Spread quote (c :: after) (c :: content)

theorem readLines_quote (quote : Char) (fuel : Nat) (s : List Char) :
    readLines quote (fuel + 1) (quote :: s) =
      let count := (opening quote (quote :: s)).length
      if count < 3 then
        (readLines quote fuel s).map fun (content, rest) => (quote :: content, rest)
      else some (List.replicate (count - 3) quote, (quote :: s).drop count) := by
  rw [readLines, if_pos rfl]
  rfl

namespace Spread

theorem clean (isQuote : isQuote quote = true) (spread : Spread quote piece content) :
    '\r' ∉ piece := by
  induction spread with
  | close => simp [List.mem_replicate, (isQuote_ne_cr isQuote).symm]
  | quote _ _ ih => simp [(isQuote_ne_cr isQuote).symm, ih]
  | escape _ escape _ ih => simp [escape.clean, ih]
  | plain _ _ allowed _ ih =>
    rintro (_ | ⟨_, member⟩)
    · exact absurd allowed (by decide)
    · exact ih member

/-- Three quotes close the string. -/
theorem length_ge (spread : Spread quote piece content) : 3 ≤ piece.length := by
  induction spread with
  | close => simp
  | quote _ _ ih => exact ih.trans (Nat.le_succ _)
  | escape _ _ _ ih => simp; omega
  | plain _ _ _ _ ih => exact ih.trans (Nat.le_succ _)

theorem ne_nil (spread : Spread quote piece content) : piece ≠ [] :=
  List.ne_nil_of_length_pos (Nat.zero_lt_of_lt spread.length_ge)

/-- Whether three quotes stand at the start of a string is seen from its own text. -/
theorem early_iff (spread : Spread quote piece content) (rest : List Char) :
    [quote, quote, quote] <+: quote :: (piece ++ rest) ↔
      [quote, quote, quote] <+: quote :: piece := by
  constructor
  · intro start
    refine List.prefix_of_prefix_length_le start (List.prefix_append (quote :: piece) rest) ?_
    have := spread.length_ge
    simp
    omega
  · intro start
    exact start.trans (List.prefix_append (quote :: piece) rest)

theorem reads (spread : Spread quote piece content) (enough : piece.length ≤ fuel)
    (stop : rest.head? ≠ some quote) :
    readLines quote fuel (piece ++ rest) = some (content, rest) := by
  induction spread generalizing fuel with
  | @close more few =>
    obtain ⟨fuel, rfl, -⟩ := exists_step enough
    have all : opening quote (List.replicate (more + 3) quote ++ rest) =
        List.replicate (more + 3) quote := opening_replicate (by omega) fun _ => stop
    have count : (opening quote (quote :: (List.replicate (more + 2) quote ++ rest))).length =
        more + 3 := (congrArg List.length all).trans List.length_replicate
    rw [List.replicate_succ, List.cons_append, readLines_quote]
    simp only [count]
    rw [if_neg (by omega)]
    simp
  | @quote after content early goes ih =>
    obtain ⟨fuel, rfl, less⟩ := exists_step enough
    have few := length_opening_lt_iff.mpr ((goes.early_iff rest).not.mpr early)
    rw [List.cons_append, readLines_quote]
    simp only [if_pos few, ih less, Option.map_some]
  | @escape piece plain after content basic escape goes ih =>
    obtain ⟨fuel, rfl, less⟩ := exists_step enough
    have less : after.length ≤ fuel := by simp at less; omega
    have head : (after ++ rest).head? = after.head? :=
      List.head?_append_of_ne_nil after goes.ne_nil
    rw [← head] at escape
    subst basic
    simp only [List.cons_append, List.append_assoc, readLines, escape.reads, ih less,
      Option.bind_eq_bind, Option.bind_some, Option.pure_def]
    rfl
  | plain other literal allowed _ ih =>
    obtain ⟨fuel, rfl, less⟩ := exists_step enough
    simp only [List.cons_append, readLines, if_neg other, if_neg literal, if_neg allowed, ih less,
      Option.map_some]

/-- A row of quotes that is long enough closes the string with its last three. -/
theorem of_opening (closing : 3 ≤ (opening quote s).length) :
    Spread quote (opening quote s) (List.replicate ((opening quote s).length - 3) quote) := by
  have few := length_opening_le quote s
  obtain ⟨more, length⟩ := Nat.exists_eq_add_of_le' closing
  rw [opening_eq_replicate, length, List.length_replicate, Nat.add_sub_cancel]
  exact .close (by omega)

theorem of_read (read : readLines quote fuel s = some (content, rest)) :
    ∃ piece, s = piece ++ rest ∧ Spread quote piece content := by
  induction fuel generalizing s content with
  | zero => cases read
  | succ fuel ih =>
    cases s with
    | nil => cases read
    | cons c s =>
      by_cases closes : c = quote
      · subst closes
        rw [readLines_quote] at read
        dsimp only at read
        split at read
        · next few =>
          obtain ⟨⟨later, rest'⟩, readL, equal⟩ := Option.map_eq_some_iff.mp read
          cases equal
          obtain ⟨after, rfl, goes⟩ := ih readL
          exact ⟨c :: after, rfl,
            .quote ((goes.early_iff _).not.mp (length_opening_lt_iff.mp few)) goes⟩
        · next closing =>
          cases read
          have whole := List.prefix_iff_eq_append.mp (opening_isPrefix c (c :: s))
          exact ⟨opening c (c :: s), whole.symm, of_opening (by omega)⟩
      · rw [readLines, if_neg closes] at read
        split at read
        · next found =>
          simp only [Option.bind_eq_bind, Option.bind_eq_some_iff, Prod.exists, Option.pure_def,
            Option.some.injEq, Prod.mk.injEq] at read
          obtain ⟨plain, s', readE, later, rest', readL, rfl, rfl⟩ := read
          obtain ⟨piece, rfl, escape⟩ := Escape.of_read readE
          obtain ⟨after, rfl, goes⟩ := ih readL
          rw [List.head?_append_of_ne_nil after goes.ne_nil] at escape
          exact ⟨c :: (piece ++ after), by simp, found.1 ▸ .escape found.2 escape goes⟩
        · next literal =>
          split at read
          · cases read
          · next allowed =>
            obtain ⟨⟨later, rest'⟩, readL, equal⟩ := Option.map_eq_some_iff.mp read
            cases equal
            obtain ⟨after, rfl, goes⟩ := ih readL
            exact ⟨c :: after, rfl, .plain closes literal allowed goes⟩

end Spread

/-! ### All strings -/

/-- The text of a string and its content. A newline directly after the opening quotes of a string
on several lines is not part of it. -/
inductive Spells : List Char → List Char → Prop
  | inline {quote : Char} {piece content : List Char} (isQuote : isQuote quote = true)
      (inline : Inline quote piece content) : Spells (quote :: piece) content
  | spread {quote : Char} {piece content : List Char} (isQuote : isQuote quote = true)
      (spread : Spread quote piece content) (beside : piece.head? ≠ some '\n') :
      Spells (quote :: quote :: quote :: piece) content
  | spreadBelow {quote : Char} {piece content : List Char} (isQuote : isQuote quote = true)
      (spread : Spread quote piece content) :
      Spells (quote :: quote :: quote :: '\n' :: piece) content

theorem isQuote_iff : isQuote quote = true ↔ quote = '"' ∨ quote = '\'' := by
  simp [isQuote]

namespace Spells

theorem opens (spells : Spells piece content) :
    ∃ quote next more, piece = quote :: next :: more ∧ isQuote quote = true := by
  cases spells with
  | inline isQ inline =>
    obtain ⟨next, more, rfl⟩ := List.exists_cons_of_ne_nil inline.ne_nil
    exact ⟨_, next, more, rfl, isQ⟩
  | spread isQ => exact ⟨_, _, _, rfl, isQ⟩
  | spreadBelow isQ => exact ⟨_, _, _, rfl, isQ⟩

theorem clean (spells : Spells piece content) : '\r' ∉ piece := by
  cases spells with
  | inline isQ inline => simp [(isQuote_ne_cr isQ).symm, inline.clean isQ]
  | spread isQ spread => simp [(isQuote_ne_cr isQ).symm, spread.clean isQ]
  | spreadBelow isQ spread => simp [(isQuote_ne_cr isQ).symm, spread.clean isQ]

theorem reads (spells : Spells piece content) (stop : ∀ c ∈ rest.head?, isQuote c = false) :
    readString (piece ++ rest) = some (content, rest) := by
  have noQuote : ∀ {quote : Char}, isQuote quote = true → rest.head? ≠ some quote := by
    intro quote isQ same
    have := stop quote same
    rw [isQ] at this
    cases this
  cases spells with
  | @inline quote piece content isQ inline =>
    rcases inline.cases_first with ⟨rfl, rfl⟩ | ⟨c, d, more, rfl, other⟩
    · -- Two quotes are the empty string only where no third one follows.
      cases rest with
      | nil => simp [readString, isQuote_iff.mp isQ]
      | cons c rest =>
        have : quote ≠ c := fun same => noQuote isQ (by rw [same, List.head?_cons])
        simp [readString, isQuote_iff.mp isQ, this, readLine]
    · have first : ¬ (quote = c ∧ c = d) := fun same => other same.1.symm
      simp only [List.cons_append, readString, if_pos (isQuote_iff.mp isQ), if_neg first]
      exact inline.reads (by simp; omega)
  | @spread quote piece content isQ spread beside =>
    have head : (piece ++ rest).head? ≠ some '\n' := by
      rwa [List.head?_append_of_ne_nil piece spread.ne_nil]
    simp only [List.cons_append, readString, if_pos (isQuote_iff.mp isQ), and_self, if_true,
      if_neg head]
    exact spread.reads (by simp; omega) (noQuote isQ)
  | @spreadBelow quote piece content isQ spread =>
    simp only [List.cons_append, readString, if_pos (isQuote_iff.mp isQ), and_self, if_true,
      List.head?_cons, List.tail_cons]
    exact spread.reads (by simp; omega) (noQuote isQ)

theorem of_read (read : readString s = some (content, rest)) :
    ∃ piece, s = piece ++ rest ∧ Spells piece content := by
  unfold readString at read
  split at read
  · next a b c s =>
    split at read
    · next quote =>
      have quote := isQuote_iff.mpr quote
      split at read
      · next triple =>
        obtain ⟨rfl, rfl⟩ := triple
        dsimp only at read
        obtain ⟨piece, body, spread⟩ := Spread.of_read read
        split at body
        · next newline =>
          obtain ⟨s, rfl⟩ := List.head?_eq_some_iff.mp newline
          rw [List.tail_cons] at body
          exact ⟨a :: a :: a :: '\n' :: piece, by rw [body]; rfl, .spreadBelow quote spread⟩
        · next beside =>
          rw [body, List.head?_append_of_ne_nil piece spread.ne_nil] at beside
          exact ⟨a :: a :: a :: piece, by rw [body]; rfl, .spread quote spread beside⟩
      · obtain ⟨piece, body, inline⟩ := Inline.of_read read
        exact ⟨a :: piece, by rw [body]; rfl, .inline quote inline⟩
    · cases read
  · next a b =>
    split at read
    · next pair =>
      obtain ⟨quote, rfl⟩ := pair
      cases read
      exact ⟨[a, a], rfl, .inline (isQuote_iff.mpr quote) .close⟩
    · cases read
  · cases read

end Spells

/-- A string goes up to its closing quotes, if no quote follows. -/
theorem readString_some (read : readString s = some (content, rest)) :
    ∃ piece, s = piece ++ rest ∧ '\r' ∉ piece ∧
      (∃ quote more, piece = quote :: more ∧ isQuote quote = true) ∧
      Yields readString (fun other => ∀ c ∈ other.head?, isQuote c = false) piece content := by
  obtain ⟨piece, whole, spells⟩ := Spells.of_read read
  obtain ⟨quote, next, more, first, isQ⟩ := spells.opens
  exact ⟨piece, whole, spells.clean, ⟨quote, next :: more, first, isQ⟩,
    fun _ stop => spells.reads stop⟩

end StyleMonitor.Toml
