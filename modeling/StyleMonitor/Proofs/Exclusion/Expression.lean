import StyleMonitor.Proofs.Exclusion.Meaning

/-!
# The regular expressions of exclusion patterns

A line of an ignore file can be written as a regular expression: every special character of it is
escaped, the escaped stars are replaced by `.*`, and the whole is anchored at both ends, after an
optional tail if the line ends in a slash. Such an expression can always be read, and it occurs in
a path exactly when the line covers the path.
-/

namespace StyleMonitor

namespace Exclusion

/-- A regular expression. -/
inductive Expression where
  /-- Nothing, anywhere. -/
  | nothing
  | literal (c : Char)
  /-- One character other than a newline. -/
  | any
  /-- Nothing, at the start of the text. -/
  | start
  /-- Nothing, at the end of the text. -/
  | finish
  | sequence (first second : Expression)
  /-- Any number of these, one after the other. -/
  | many (inner : Expression)
  | optional (inner : Expression)
  deriving DecidableEq, Repr

/-- A special character is written behind a backslash to stand for itself. -/
def isSpecial (c : Char) : Bool :=
  "\\.+*?()|[]\x7b\x7d^$#&-~".toList.contains c

namespace Expression

/-- Expressions one after the other. -/
def chain : List Expression → Expression :=
  List.foldr sequence nothing

def isRepetition : Expression → Bool
  | many _ | optional _ => true
  | _ => false

/-- Reads an expression. `outer` holds what stands before each group that is open and `items` what
was read since the last of them was opened, the latest first. -/
def readOnto (outer : List (List Expression)) (items : List Expression) :
    List Char → Option Expression
  | [] => if outer.isEmpty then some (chain items.reverse) else none
  | '\\' :: c :: rest => if isSpecial c then readOnto outer (literal c :: items) rest else none
  | '(' :: '?' :: ':' :: rest => readOnto (items :: outer) [] rest
  | c :: rest =>
    match c, outer, items with
    | '.', _, _ => readOnto outer (any :: items) rest
    | '^', _, _ => readOnto outer (start :: items) rest
    | '$', _, _ => readOnto outer (finish :: items) rest
    | ')', before :: outer, _ => readOnto outer (chain items.reverse :: before) rest
    | '*', _, item :: items =>
      if item.isRepetition then none else readOnto outer (many item :: items) rest
    | '?', _, item :: items =>
      if item.isRepetition then none else readOnto outer (optional item :: items) rest
    | _, _, _ => if isSpecial c then none else readOnto outer (literal c :: items) rest

/-- The expression that a text writes. -/
def read? (text : List Char) : Option Expression :=
  readOnto [] [] text

/-- An expression matches a text that stands between two others. -/
inductive Matches : Expression → List Char → List Char → List Char → Prop where
  | nothing (before after : List Char) : Matches nothing before [] after
  | literal (c : Char) (before after : List Char) : Matches (literal c) before [c] after
  | any (c : Char) (before after : List Char) : c ≠ '\n' → Matches any before [c] after
  | start (after : List Char) : Matches start [] [] after
  | finish (before : List Char) : Matches finish before [] []
  | sequence {first second : Expression} {before s t after : List Char} :
    Matches first before s (t ++ after) → Matches second (before ++ s) t after →
    Matches (sequence first second) before (s ++ t) after
  | none (inner : Expression) (before after : List Char) : Matches (many inner) before [] after
  | again {inner : Expression} {before s t after : List Char} :
    Matches inner before s (t ++ after) → Matches (many inner) (before ++ s) t after →
    Matches (many inner) before (s ++ t) after
  | without (inner : Expression) (before after : List Char) :
    Matches (optional inner) before [] after
  | one {inner : Expression} {before s after : List Char} : Matches inner before s after →
    Matches (optional inner) before s after

/-- An expression occurs in a text if it matches some part of it. -/
def Occurs (expression : Expression) (text : List Char) : Prop :=
  ∃ before s after, text = before ++ s ++ after ∧ Matches expression before s after

end Expression

/-- Takes the special meaning from every character of a text. -/
def escape (s : List Char) : List Char :=
  s.flatMap fun c => if isSpecial c then ['\\', c] else [c]

/-- Puts `.*` in the place of every star behind a backslash. -/
def openStars : List Char → List Char
  | '\\' :: '*' :: rest => '.' :: '*' :: openStars rest
  | c :: rest => c :: openStars rest
  | [] => []

/-- The regular expression that a line of an ignore file is written as. -/
def expressionText (line : List Char) : List Char :=
  '^' :: openStars (escape (Text.dropFinal '/' line)) ++
    if line.getLast? = some '/' then "(?:/.*)?$".toList else "$".toList

namespace Symbol

/-- How a symbol is written in a regular expression. -/
def text : Symbol → List Char
  | literal c => if isSpecial c then ['\\', c] else [c]
  | anyRun => ['.', '*']

def expression : Symbol → Expression
  | literal c => .literal c
  | anyRun => .many .any

end Symbol

theorem openStars_cons {c : Char} {s : List Char} (none : s.head? ≠ some '*') :
    openStars (c :: s) = c :: openStars s := by
  rw [openStars]
  rintro rest rfl rfl
  exact none rfl

/-- An escaped text does not start with a star, so no backslash that stands for itself is taken
for the one before a star. -/
theorem head?_escape (s : List Char) : (escape s).head? ≠ some '*' := by
  cases s with
  | nil => simp [escape]
  | cons c rest =>
    rw [escape, List.flatMap_cons]
    split
    · simp
    · next plain =>
      rw [List.singleton_append, List.head?_cons]
      rintro ⟨rfl⟩
      exact plain (by decide)

theorem openStars_escape (s : List Char) :
    openStars (escape s) = (s.map Symbol.ofChar).flatMap Symbol.text := by
  induction s with
  | nil => rfl
  | cons c rest ih =>
    have next : escape (c :: rest) = (if isSpecial c then ['\\', c] else [c]) ++ escape rest := rfl
    rw [next, List.map_cons, List.flatMap_cons, ← ih, Symbol.ofChar]
    by_cases star : c = '*'
    · subst star
      rfl
    · rw [if_neg star, Symbol.text]
      split
      · have self : ([c] ++ escape rest).head? ≠ some '*' := by simpa using star
        rw [List.cons_append, openStars_cons self, List.singleton_append,
          openStars_cons (head?_escape rest)]
        rfl
      · exact openStars_cons (head?_escape rest)

namespace Expression

variable {outer : List (List Expression)} {items : List Expression} {rest : List Char} {c : Char}

theorem readOnto_special (special : isSpecial c = true) :
    readOnto outer items ('\\' :: c :: rest) = readOnto outer (literal c :: items) rest := by
  rw [readOnto, if_pos special]

theorem readOnto_plain (plain : isSpecial c = false) :
    readOnto outer items (c :: rest) = readOnto outer (literal c :: items) rest := by
  have apart {d : Char} (same : c = d) (special : isSpecial d = true) : False := by
    rw [← same, plain] at special
    cases special
  rw [readOnto, if_neg (Bool.eq_false_iff.mp plain)]
  -- The other equations of the reader are for special characters.
  all_goals
    intros
    exact apart ‹c = _› (by decide)

theorem readOnto_symbol (symbol : Symbol) : readOnto outer items (symbol.text ++ rest) =
    readOnto outer (symbol.expression :: items) rest := by
  cases symbol with
  | anyRun => rfl
  | literal c =>
    rw [Symbol.text]
    split
    · next special => exact readOnto_special special
    · next plain => exact readOnto_plain (Bool.eq_false_iff.mpr plain)

theorem readOnto_symbols (symbols : List Symbol) :
    readOnto outer items (symbols.flatMap Symbol.text ++ rest) =
      readOnto outer ((symbols.map Symbol.expression).reverse ++ items) rest := by
  induction symbols generalizing items with
  | nil => rfl
  | cons symbol symbols ih =>
    rw [List.flatMap_cons, List.append_assoc, readOnto_symbol, ih, List.map_cons,
      List.reverse_cons, List.append_assoc, List.singleton_append]

end Expression

/-- The optional tail of what ends in a slash. -/
def insideTail : Expression :=
  .optional (.chain [.literal '/', .many .any])

/-- The expressions that a line is written as, between the two ends. -/
def lineItems (line : List Char) : List Expression :=
  (symbolsOf line).map Symbol.expression ++
    if line.getLast? = some '/' then [insideTail] else []

/-- Whatever characters a line is made of, its expression can be read. -/
theorem read?_expressionText (line : List Char) : Expression.read? (expressionText line) =
    some (.chain (.start :: (lineItems line ++ [.finish]))) := by
  have opened {tail : List Char} : Expression.read? ('^' ::
      (openStars (escape (Text.dropFinal '/' line)) ++ tail)) = Expression.readOnto []
        (((symbolsOf line).map Symbol.expression).reverse ++ [.start]) tail := by
    rw [openStars_escape, ← Expression.readOnto_symbols]
    rfl
  rw [expressionText, List.cons_append, opened, lineItems]
  split
  · have tail {items : List Expression} : Expression.readOnto [] items "(?:/.*)?$".toList =
        some (.chain (.finish :: insideTail :: items).reverse) := rfl
    rw [tail]
    simp
  · have tail {items : List Expression} : Expression.readOnto [] items "$".toList =
        some (.chain (.finish :: items).reverse) := rfl
    rw [tail]
    simp

/-- A backslash before a star stands for itself. -/
example : expressionText "a\\*/".toList = "^a\\\\.*(?:/.*)?$".toList := by decide

namespace Expression.Matches

variable {before s after : List Char} {item : Expression} {items : List Expression}

theorem many_any_iff : Matches (.many .any) before s after ↔ '\n' ∉ s := by
  constructor
  · intro found
    generalize same : Expression.many .any = expression at found
    induction found with
    | none => exact List.not_mem_nil
    | again first _ _ later =>
      cases same
      cases first with
      | any c _ _ apart => simpa [apart.symm] using later rfl
    | _ => cases same
  · intro clean
    induction s generalizing before with
    | nil => exact .none .any before after
    | cons c s ih =>
      rw [List.mem_cons, not_or] at clean
      exact .again (.any c before (s ++ after) (Ne.symm clean.1)) (ih clean.2)

theorem chain_cons_iff : Matches (chain (item :: items)) before s after ↔
    ∃ front back, s = front ++ back ∧ Matches item before front (back ++ after) ∧
      Matches (chain items) (before ++ front) back after := by
  constructor
  · rintro ⟨⟩
    exact ⟨_, _, rfl, ‹_›, ‹_›⟩
  · rintro ⟨front, back, rfl, first, second⟩
    exact .sequence first second

theorem chain_nil_iff : Matches (chain []) before s after ↔ s = [] := by
  constructor
  · rintro ⟨⟩
    rfl
  · rintro rfl
    exact .nothing before after

/-- The expressions of some symbols match what the symbols match, wherever it stands. -/
theorem symbols_append_iff {symbols : List Symbol} :
    Matches (chain (symbols.map Symbol.expression ++ items)) before s after ↔
      ∃ front back, s = front ++ back ∧ Fits symbols front ∧
        Matches (chain items) (before ++ front) back after := by
  induction symbols generalizing before s with
  | nil =>
    constructor
    · exact fun matched => ⟨[], s, rfl, .done, by simpa using matched⟩
    · rintro ⟨_, back, rfl, ⟨⟩, matched⟩
      simpa using matched
  | cons symbol symbols ih =>
    rw [List.map_cons, List.cons_append, chain_cons_iff]
    cases symbol with
    | literal c =>
      constructor
      · rintro ⟨_, _, rfl, ⟨⟩, rest⟩
        obtain ⟨front, back, rfl, fits, matched⟩ := ih.mp rest
        exact ⟨c :: front, back, rfl, .literal c fits, by simpa using matched⟩
      · rintro ⟨_, back, rfl, fits, matched⟩
        obtain ⟨front, rfl, later⟩ := Fits.literal_iff.mp fits
        exact ⟨[c], front ++ back, rfl, .literal c before _,
          ih.mpr ⟨front, back, rfl, later, by simpa using matched⟩⟩
    | anyRun =>
      constructor
      · rintro ⟨run, _, rfl, clean, rest⟩
        obtain ⟨front, back, rfl, fits, matched⟩ := ih.mp rest
        exact ⟨run ++ front, back, (List.append_assoc ..).symm,
          .anyRun run (many_any_iff.mp clean) fits, by simpa using matched⟩
      · rintro ⟨_, back, rfl, fits, matched⟩
        obtain ⟨run, front, rfl, clean, later⟩ := Fits.anyRun_iff.mp fits
        exact ⟨run, front ++ back, List.append_assoc .., many_any_iff.mpr clean,
          ih.mpr ⟨front, back, rfl, later, by simpa using matched⟩⟩

theorem symbols_iff {symbols : List Symbol} :
    Matches (chain (symbols.map Symbol.expression)) before s after ↔ Fits symbols s := by
  rw [← List.append_nil (symbols.map _), symbols_append_iff]
  constructor
  · rintro ⟨front, back, rfl, fits, last⟩
    rwa [chain_nil_iff.mp last, List.append_nil]
  · exact fun fits => ⟨s, [], (List.append_nil s).symm, fits, chain_nil_iff.mpr rfl⟩

theorem insideTail_iff : Matches insideTail before s after ↔
    s = [] ∨ Fits [.literal '/', .anyRun] s := by
  have inner : Matches (chain ([.literal '/', .anyRun].map Symbol.expression)) before s after ↔ _ :=
    symbols_iff
  rw [← inner]
  constructor
  · rintro (_ | _)
    · exact Or.inl rfl
    · exact Or.inr ‹_›
  · rintro (rfl | found)
    · exact .without _ before after
    · exact .one found

/-- The expressions of a line match what the line covers, wherever it stands. -/
theorem lineItems_append_iff {line : List Char} :
    Matches (chain (lineItems line ++ items)) before s after ↔
      ∃ front back, s = front ++ back ∧ Covers line front ∧
        Matches (chain items) (before ++ front) back after := by
  rw [lineItems, List.append_assoc, symbols_append_iff]
  simp only [covers_iff]
  by_cases slash : line.getLast? = some '/'
  · simp only [if_pos slash, List.singleton_append, chain_cons_iff, insideTail_iff]
    constructor
    · rintro ⟨front, _, rfl, fits, tail, back, rfl, below, matched⟩
      exact ⟨front ++ tail, back, (List.append_assoc ..).symm,
        ⟨front, tail, rfl, fits, below.imp_right fun below => ⟨slash, below⟩⟩,
        by simpa using matched⟩
    · rintro ⟨_, back, rfl, ⟨front, tail, rfl, fits, below⟩, matched⟩
      exact ⟨front, tail ++ back, List.append_assoc .., fits, tail, back, rfl,
        below.imp_right And.right, by simpa using matched⟩
  · simp only [slash, false_and, or_false]
    constructor
    · rintro ⟨front, back, rfl, fits, matched⟩
      exact ⟨front, back, rfl, ⟨front, [], (List.append_nil front).symm, fits, rfl⟩, matched⟩
    · rintro ⟨_, back, rfl, ⟨front, _, rfl, fits, rfl⟩, matched⟩
      rw [List.append_nil] at matched ⊢
      exact ⟨front, back, rfl, fits, matched⟩

end Expression.Matches

/-- The expression of a line occurs in what the line covers: its ends are those of the path. -/
theorem occurs_lineItems_iff {line path : List Char} :
    (Expression.chain (.start :: (lineItems line ++ [.finish]))).Occurs path ↔
      Covers line path := by
  constructor
  · rintro ⟨before, s, after, rfl, found⟩
    obtain ⟨_, _, rfl, ⟨⟩, found⟩ := Expression.Matches.chain_cons_iff.mp found
    obtain ⟨front, _, rfl, covers, found⟩ := Expression.Matches.lineItems_append_iff.mp found
    obtain ⟨_, _, rfl, finish, last⟩ := Expression.Matches.chain_cons_iff.mp found
    obtain rfl := Expression.Matches.chain_nil_iff.mp last
    cases finish
    simpa using covers
  · intro covers
    refine ⟨[], path, [], by simp, ?_⟩
    have finish : Expression.Matches (.chain [.finish]) path [] [] :=
      Expression.Matches.chain_cons_iff.mpr
        ⟨[], [], rfl, .finish path, Expression.Matches.chain_nil_iff.mpr rfl⟩
    exact Expression.Matches.chain_cons_iff.mpr ⟨[], path, rfl, .start _,
      Expression.Matches.lineItems_append_iff.mpr
        ⟨path, [], (List.append_nil path).symm, covers, finish⟩⟩

end Exclusion

open Exclusion in
/-- A path is excluded exactly when some line that holds a pattern covers it, and the first such
line is the one that is named. The expression that a line is written as can always be read, and
occurs in exactly the paths that the line covers. -/
theorem Exclusions.excludes_iff_covers (lines : List String) (path : String) :
    ((ofLines lines).excludes path = true ↔
      ∃ line ∈ patternLines lines, Covers line path.toList) ∧
    (∀ source, (ofLines lines).matching? path = some source ↔
      ∃ earlier line later, patternLines lines = earlier ++ line :: later ∧
        String.ofList line = source ∧ Covers line path.toList ∧
        ∀ other ∈ earlier, ¬ Covers other path.toList) ∧
    ((ofLines lines).matching? path).isSome = (ofLines lines).excludes path ∧
    ∀ line ∈ patternLines lines, ∃ expression,
      Expression.read? (expressionText line) = some expression ∧
      (expression.Occurs path.toList ↔ Covers line path.toList) :=
  ⟨excludes_ofLines_iff, fun _ => matching?_ofLines_iff, matching?_isSome _ path,
    fun line _ => ⟨_, read?_expressionText line, occurs_lineItems_iff⟩⟩

end StyleMonitor
