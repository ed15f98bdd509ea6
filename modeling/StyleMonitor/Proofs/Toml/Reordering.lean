import Mathlib.Data.List.Sort
import StyleMonitor.Proofs.Toml.Rebuild

/-!
# Blocks in another order

Blocks that are added at different keys can be added in either order, and so can the header of a
table with its lines and what has a header below it: a table that a line and a header lead through
stems from dotted keys whichever comes first. Sorting blocks by their numbers thus changes nothing,
where those that change places are of that kind.
-/

namespace StyleMonitor.Toml

/-- Whether two changes that can be made one after the other can be made the other way round. -/
def Fields.Swaps (first second : Fields → Option Fields) : Prop :=
  ∀ ⦃fields changed⦄, (first fields).bind second = some changed →
    (second fields).bind first = some changed

namespace Fields.Swaps

variable {first second change : Fields → Option Fields}

theorem some_left (change : Fields → Option Fields) : Swaps some change := by
  intro fields changed result
  rw [Option.bind_some] at result
  rw [result, Option.bind_some]

theorem some_right (change : Fields → Option Fields) : Swaps change some := by
  intro fields changed result
  rw [Option.bind_some]
  cases found : change fields with
  | none => rw [found] at result; cases result
  | some between => rw [found] at result; exact result

/-- What swaps with two changes swaps with one after the other. -/
theorem bind (swapsFirst : Swaps first change) (swapsSecond : Swaps second change) :
    Swaps (fun fields => (first fields).bind second) change := by
  intro fields changed result
  simp only [Option.bind_eq_some_iff] at result
  obtain ⟨last, ⟨middle, atFirst, atSecond⟩, atChange⟩ := result
  have swapped : (change middle).bind second = some changed :=
    swapsSecond (by rw [atSecond, Option.bind_some, atChange])
  obtain ⟨other, changeMiddle, secondOther⟩ := Option.bind_eq_some_iff.mp swapped
  have swapped' : (change fields).bind first = some other :=
    swapsFirst (by rw [atFirst, Option.bind_some, changeMiddle])
  obtain ⟨start, changeFields, firstStart⟩ := Option.bind_eq_some_iff.mp swapped'
  rw [changeFields, Option.bind_some, firstStart, Option.bind_some, secondOther]

/-- Changes of what different names stand for. -/
theorem change_of_ne {name other : String} (different : name ≠ other)
    (step step' : Option Shape → Option Shape) :
    Swaps (Fields.change name step) (Fields.change other step') := by
  intro fields changed result
  simp only [Fields.change, Option.bind_eq_some_iff, Option.map_eq_some_iff] at result ⊢
  obtain ⟨_, ⟨shape, atStep, rfl⟩, shape', atStep', rfl⟩ := result
  rw [Function.update_of_ne (Ne.symm different)] at atStep'
  refine ⟨_, ⟨shape', atStep', rfl⟩, shape, ?_, Function.update_comm (Ne.symm different) ..⟩
  rwa [Function.update_of_ne different]

/-- Two steps at one name. -/
theorem change_of_step {name : String} {step step' : Option Shape → Option Shape}
    (swaps : ∀ slot shape, (step slot).bind (fun s => step' (some s)) = some shape →
      (step' slot).bind (fun s => step (some s)) = some shape) :
    Swaps (Fields.change name step) (Fields.change name step') := by
  intro fields changed result
  simp only [Fields.change, Option.bind_eq_some_iff, Option.map_eq_some_iff] at result ⊢
  obtain ⟨_, ⟨shape, atStep, rfl⟩, shape', atStep', rfl⟩ := result
  rw [Function.update_self] at atStep'
  have := swaps (fields name) shape' (by rw [atStep, Option.bind_some, atStep'])
  obtain ⟨between, atBetween, back⟩ := Option.bind_eq_some_iff.mp this
  refine ⟨_, ⟨between, atBetween, rfl⟩, shape', ?_, by simp⟩
  rwa [Function.update_self]

/-- A change of a table after which a header leads into it can come after the other one as well. -/
theorem through (swaps : Swaps first second) {put : Fields → Shape} (opens : Shape.Opens put)
    {members : Fields} {shape : Shape}
    (result : ((first members).map put).bind (fun s => Shape.inside second (some s)) = some shape) :
    ∃ other, second members = some other ∧ (first other).map put = some shape := by
  simp only [Option.bind_eq_some_iff, Option.map_eq_some_iff] at result
  obtain ⟨_, ⟨between, atFirst, rfl⟩, atSecond⟩ := result
  rw [opens, Option.map_eq_some_iff] at atSecond
  obtain ⟨changed, atSecond, rfl⟩ := atSecond
  have := swaps (show (first members).bind second = some changed by
    rw [atFirst, Option.bind_some, atSecond])
  obtain ⟨other, atOther, back⟩ := Option.bind_eq_some_iff.mp this
  exact ⟨other, atOther, by rw [back, Option.map_some]⟩

/-- Changes below one name. -/
theorem inside (swaps : Swaps first second) (name : String) :
    Swaps (Fields.change name (Shape.inside first)) (Fields.change name (Shape.inside second)) := by
  refine change_of_step fun slot shape result => ?_
  -- A header leads to the same table after the change as before it.
  have both : ∀ (put : Fields → Shape), Shape.Opens put → ∀ members,
      ((first members).map put).bind (fun s => Shape.inside second (some s)) = some shape →
      ((second members).map put).bind (fun s => Shape.inside first (some s)) = some shape := by
    intro put opens members result
    obtain ⟨other, atOther, back⟩ := swaps.through opens result
    rw [atOther, Option.map_some, Option.bind_some, opens, back]
  match slot, result with
  | none, result => exact both _ (Shape.opens_table true false) _ result
  | some (.table implicit dotted members), result =>
    exact both _ (Shape.opens_table implicit dotted) members result
  | some (.tables elements), result =>
    rcases List.eq_nil_or_concat elements with rfl | ⟨before, last, rfl⟩
    · cases result
    · rw [List.concat_eq_append] at result ⊢
      have opens := Shape.opens_tables before
      rw [opens] at result ⊢
      exact both _ opens last result

/-- A change below a dotted key and one that a header leads to below the same name. -/
theorem dots (swaps : Swaps first second) (name : String) :
    Swaps (Fields.change name (Shape.dots first)) (Fields.change name (Shape.inside second)) := by
  refine change_of_step fun slot shape result => ?_
  match slot, result with
  | none, result =>
    obtain ⟨other, atOther, back⟩ := swaps.through (Shape.opens_table true true) result
    show ((second _).map _).bind _ = _
    rw [atOther]
    exact back
  | some (.table true dotted members), result =>
    obtain ⟨other, atOther, back⟩ := swaps.through (Shape.opens_table true true) result
    show ((second members).map _).bind _ = _
    rw [atOther]
    exact back

/-- The header of a table with its lines, and a change below it that these swap with. -/
theorem opened (swaps : Swaps first second) (name : String) :
    Swaps (Fields.change name (Shape.opened first)) (Fields.change name (Shape.inside second)) := by
  refine change_of_step fun slot shape result => ?_
  match slot, result with
  | none, result =>
    obtain ⟨other, atOther, back⟩ := swaps.through (Shape.opens_table false false) result
    show ((second _).map _).bind _ = _
    rw [atOther]
    exact back
  | some (.table implicit dotted members), result =>
    rw [Shape.opened] at result
    split at result
    · next mentioned =>
      obtain ⟨other, atOther, back⟩ := swaps.through (Shape.opens_table false false) result
      show ((second members).map _).bind _ = _
      rw [atOther, Option.map_some, Option.bind_some, Shape.opened, if_pos mentioned, back]
    · cases result

end Fields.Swaps

/-! ### Lines and headers -/

/-- Whether a shape is that of a value. -/
def Shape.isValue : Shape → Bool
  | table _ _ _ => false
  | tables _ => false
  | _ => true

theorem isValue_shape (item : Item) : item.shape.isValue = item.isValue := by
  cases item <;> rfl

namespace Shape

/-- Whether a step that a header takes fails at all that a line put there. -/
structure Clashes (step : Option Shape → Option Shape) : Prop where
  value : ∀ shape : Shape, shape.isValue = true → step (some shape) = none
  dotted : ∀ implicit members, step (some (table implicit true members)) = none

theorem clashes_opened (fill : Fields → Option Fields) : Clashes (opened fill) where
  value shape value := by
    cases shape with
    | table => cases value
    | _ => rfl
  dotted implicit members := by simp [opened]

theorem clashes_added (fill : Fields → Option Fields) : Clashes (added fill) where
  value shape value := by
    cases shape with
    | tables => cases value
    | _ => rfl
  dotted implicit members := rfl

/-- A header does not lead through a value. -/
theorem inside_value (inner : Fields → Option Fields) {shape : Shape} (value : shape.isValue = true) :
    inside inner (some shape) = none := by
  cases shape with
  | table => cases value
  | tables => cases value
  | _ => rfl

/-- What a dotted key leads through stems from dotted keys. -/
theorem exists_of_dots {inner : Fields → Option Fields} {slot : Option Shape} {shape : Shape}
    (result : dots inner slot = some shape) : ∃ members, shape = table true true members := by
  match slot, result with
  | none, result =>
    obtain ⟨members, -, rfl⟩ := Option.map_eq_some_iff.mp result
    exact ⟨members, rfl⟩
  | some (table true dotted below), result =>
    obtain ⟨members, -, rfl⟩ := Option.map_eq_some_iff.mp result
    exact ⟨members, rfl⟩

end Shape

namespace Fields

/-- Changes of which the second fails after the first. -/
theorem Swaps.of_clash {name other : String} {step step' : Option Shape → Option Shape}
    (clash : ∀ slot shape, step slot = some shape → step' (some shape) = none) :
    Swaps (change name step) (change other step') := by
  by_cases same : name = other
  · subst same
    refine .change_of_step fun slot shape result => ?_
    obtain ⟨between, atStep, atStep'⟩ := Option.bind_eq_some_iff.mp result
    rw [clash slot between atStep] at atStep'
    cases atStep'
  · exact .change_of_ne same _ _

/-- A line and a header can be added in either order. -/
theorem swaps_define {leaf : String} {shape : Shape} (value : shape.isValue = true)
    {step : Option Shape → Option Shape} (clashes : Shape.Clashes step) (name : String) :
    ∀ path row : List String, Swaps (define leaf shape path) (within (change name step) row)
  | [], row => by
    have put : ∀ slot other, Shape.fresh shape slot = some other → other = shape := by
      rintro (_ | old) other ⟨⟩
      rfl
    cases row with
    | nil => exact .of_clash fun slot other result => by rw [put slot other result, clashes.value _ value]
    | cons next row =>
      exact .of_clash fun slot other result => by rw [put slot other result, Shape.inside_value _ value]
  | key :: path, [] => by
    refine .of_clash fun slot other result => ?_
    obtain ⟨members, rfl⟩ := Shape.exists_of_dots result
    exact clashes.dotted true members
  | key :: path, next :: row => by
    rw [define, within]
    by_cases same : key = next
    · subst same
      exact (swaps_define value clashes name path row).dots key
    · exact .change_of_ne same _ _

theorem swaps_fill {lines : List LineShape} (values : ∀ line ∈ lines, line.2.2.isValue = true)
    (outline : Outline) : Swaps (fill lines) outline.addTo := by
  have clashes : Shape.Clashes (if outline.element then Shape.added (fill outline.lines)
      else Shape.opened (fill outline.lines)) := by
    split
    · exact Shape.clashes_added _
    · exact Shape.clashes_opened _
  induction lines with
  | nil => exact .some_left _
  | cons line lines ih =>
    have first : Swaps (define line.2.1 line.2.2 line.1) outline.addTo :=
      swaps_define (values line List.mem_cons_self) clashes outline.leaf line.1 outline.path
    exact first.bind (ih fun l mem => values l (List.mem_cons_of_mem _ mem))

end Fields

/-! ### Blocks -/

namespace Block

/-- Whether a block can stay before another one, or be added after it as well. -/
def Keeps (first second : Block) : Prop :=
  (∃ m n, first.heading.position = some m ∧ second.heading.position = some n ∧ m ≤ n) ∨
    Fields.Swaps first.addTo second.addTo

theorem keeps_of_hidden {first second : Block}
    (hidden : first.isVisible = false ∨ second.isVisible = false) : first.Keeps second := by
  right
  rcases hidden with hidden | hidden
  · rw [addTo_of_not_visible hidden]
    exact .some_left _
  · rw [addTo_of_not_visible hidden]
    exact .some_right _

/-- A block changes what its first key stands for. -/
theorem addTo_eq_change {block : Block} {key : Key} {more : List Key} (row : block.row = key :: more)
    (visible : block.isVisible = true) : ∃ step, block.addTo = Fields.change key.name step := by
  cases more with
  | nil =>
    have outline : block.outline? = some ⟨block.element, [], key.name, block.lines.map lineShape⟩ := by
      simp [outline?, row, visible]
    rw [addTo, outline]
    exact ⟨_, rfl⟩
  | cons next more =>
    set below : Block := { block with row := next :: more } with belowDef
    have under : block = below.under [key] := by
      rw [Block.under, belowDef, List.singleton_append, ← row]
    have visibleBelow : below.isVisible = true := visible
    rw [under]
    exact ⟨_, addTo_under visibleBelow (List.cons_ne_nil _ _) key⟩

theorem keeps_of_ne {first second : Block} {key other : Key} {more others : List Key}
    (row : first.row = key :: more) (row' : second.row = other :: others)
    (different : key.name ≠ other.name) : first.Keeps second := by
  cases visible : first.isVisible with
  | false => exact keeps_of_hidden (Or.inl visible)
  | true =>
    cases visible' : second.isVisible with
    | false => exact keeps_of_hidden (Or.inr visible')
    | true =>
      obtain ⟨step, changes⟩ := addTo_eq_change row visible
      obtain ⟨step', changes'⟩ := addTo_eq_change row' visible'
      rw [Keeps, changes, changes']
      exact Or.inr (.change_of_ne different _ _)

theorem Keeps.under {first second : Block} (keeps : first.Keeps second) (row : first.row ≠ [])
    (row' : second.row ≠ []) (key : Key) : (first.under [key]).Keeps (second.under [key]) := by
  rcases keeps with inOrder | swaps
  · exact Or.inl inOrder
  · cases visible : first.isVisible with
    | false => exact keeps_of_hidden (Or.inl visible)
    | true =>
      cases visible' : second.isVisible with
      | false => exact keeps_of_hidden (Or.inr visible')
      | true =>
        rw [Keeps, addTo_under visible row, addTo_under visible' row']
        exact Or.inr (swaps.inside key.name)

/-- A header of a table and a block below it. -/
theorem keeps_below {heading : Heading} {key : Key} {lines : List (List Key × Key × Item)}
    (values : ∀ line ∈ lines, line.2.2.isValue = true) {below : Block} (row : below.row ≠ []) :
    Keeps ⟨heading, [key], false, lines⟩ (below.under [key]) := by
  set header : Block := ⟨heading, [key], false, lines⟩ with headerDef
  cases visible : header.isVisible with
  | false => exact keeps_of_hidden (Or.inl visible)
  | true =>
    cases visible' : below.isVisible with
    | false => exact keeps_of_hidden (Or.inr visible')
    | true =>
      have outline : header.outline? = some ⟨false, [], key.name, lines.map lineShape⟩ := by
        rw [outline?, visible]
        rfl
      have swaps : Fields.Swaps (Fields.fill (lines.map lineShape)) below.addTo := by
        rw [addTo]
        cases below.outline? with
        | none => exact .some_right _
        | some outline =>
          refine Fields.swaps_fill (List.forall_mem_map.mpr fun line mem => ?_) outline
          exact (isValue_shape line.2.2).trans (values line mem)
      rw [Keeps, addTo, outline, addTo_under visible' row]
      exact Or.inr (swaps.opened key.name)

end Block

/-! ### Sorting -/

/-- A stable sort puts a pair in front of the first one that has no smaller number. -/
theorem mergeSort_cons_eq {α : Type} (first : Nat × α) (rest : List (Nat × α)) :
    ((first :: rest).mergeSort fun a b => a.1 ≤ b.1) =
      (rest.mergeSort fun a b => a.1 ≤ b.1).orderedInsert (fun a b => a.1 ≤ b.1) first := by
  have trans : ∀ a b c : Nat × α, decide (a.1 ≤ b.1) = true → decide (b.1 ≤ c.1) = true →
      decide (a.1 ≤ c.1) = true := fun _ _ _ le le' => by simp only [decide_eq_true_eq] at *; omega
  have total : ∀ a b : Nat × α, (decide (a.1 ≤ b.1) || decide (b.1 ≤ a.1)) = true :=
    fun _ _ => by simp only [Bool.or_eq_true, decide_eq_true_eq]; omega
  obtain ⟨before, after, sorted, sortedRest, larger⟩ := List.mergeSort_cons trans total first rest
  have inOrder := List.pairwise_mergeSort trans total (first :: rest)
  rw [sorted, List.pairwise_append, List.pairwise_cons] at inOrder
  rw [sorted, sortedRest]
  clear sorted sortedRest
  induction before with
  | nil =>
    cases after with
    | nil => rfl
    | cons next after =>
      have le := of_decide_eq_true (inOrder.2.1.1 next List.mem_cons_self)
      rw [List.nil_append, List.nil_append, List.orderedInsert_cons, if_pos le]
  | cons b before ih =>
    rw [List.forall_mem_cons] at larger
    have gt : ¬ first.1 ≤ b.1 := by simpa using larger.1
    rw [List.cons_append, List.cons_append, List.orderedInsert_cons, if_neg gt,
      ih larger.2 ⟨(List.pairwise_cons.mp inOrder.1).2, inOrder.2.1, fun a mem =>
        inOrder.2.2 a (List.mem_cons_of_mem _ mem)⟩]

/-- Sorting by numbers is stable, so any stable sort does it. -/
theorem mergeSort_eq_insertionSort {α : Type} (numbered : List (Nat × α)) :
    (numbered.mergeSort fun a b => a.1 ≤ b.1) = numbered.insertionSort fun a b => a.1 ≤ b.1 := by
  induction numbered with
  | nil => exact List.mergeSort_nil
  | cons first rest ih => rw [mergeSort_cons_eq, ih, List.insertionSort_cons]

namespace Fields

/-- A block that swaps with those of smaller numbers can be put behind them. -/
theorem build_orderedInsert {block : Nat × Block} {blocks : List (Nat × Block)}
    (keeps : ∀ other ∈ blocks, block.1 ≤ other.1 ∨ Swaps block.2.addTo other.2.addTo)
    {fields built : Fields} (result : build (block.2 :: blocks.map (·.2)) fields = some built) :
    build ((blocks.orderedInsert (fun a b => a.1 ≤ b.1) block).map (·.2)) fields = some built := by
  induction blocks generalizing fields with
  | nil => exact result
  | cons other blocks ih =>
    rw [List.forall_mem_cons] at keeps
    obtain ⟨own, others⟩ := keeps
    rw [List.orderedInsert_cons]
    split
    · exact result
    · next larger =>
      have swaps := own.resolve_left larger
      rw [List.map_cons, build_cons, Option.bind_eq_some_iff] at result
      obtain ⟨added, atBlock, result⟩ := result
      rw [build_cons, Option.bind_eq_some_iff] at result
      obtain ⟨between, atOther, rest⟩ := result
      obtain ⟨start, atStart, swapped⟩ := Option.bind_eq_some_iff.mp
        (@swaps fields _ (by rw [atBlock, Option.bind_some, atOther]))
      rw [List.map_cons, build_cons, atStart, Option.bind_some]
      exact ih others (by rw [build_cons, swapped, Option.bind_some, rest])

/-- Sorting blocks by their numbers changes nothing if those that change places swap. -/
theorem build_mergeSort {blocks : List (Nat × Block)}
    (keeps : blocks.Pairwise fun a b => a.1 ≤ b.1 ∨ Swaps a.2.addTo b.2.addTo)
    {fields built : Fields} (result : build (blocks.map (·.2)) fields = some built) :
    build ((blocks.mergeSort fun a b => a.1 ≤ b.1).map (·.2)) fields = some built := by
  induction blocks generalizing fields with
  | nil => simpa using result
  | cons block blocks ih =>
    rw [List.pairwise_cons] at keeps
    obtain ⟨own, others⟩ := keeps
    rw [List.map_cons, build_cons, Option.bind_eq_some_iff] at result
    obtain ⟨added, atBlock, rest⟩ := result
    rw [mergeSort_cons_eq]
    refine build_orderedInsert (fun other mem => own other (List.mem_mergeSort.mp mem)) ?_
    rw [build_cons, atBlock, Option.bind_some, ih others rest]

end Fields

end StyleMonitor.Toml
