import StyleMonitor.Proofs.Toml.Reordering

/-!
# The order of headers

The headers of a document have numbers, and its text has them in the order of these. In a tree that
was read, the elements of an array of tables come in the order of their numbers, and so its blocks
can be added in the order in which they are written.
-/

namespace StyleMonitor.Toml

/-- Whether the numbers of the headers of an item lie between two numbers, and where it is an array
of tables, whether its elements with all that is below them come in this order. -/
inductive Item.Dated : Nat → Nat → Item → Prop
  | value {first last : Nat} {item : Item} : item.isValue = true → Dated first last item
  | table {first last : Nat} {heading : Heading} {members : Members} :
      (∀ n ∈ heading.position, first ≤ n ∧ n ≤ last) →
      (∀ member ∈ members, Dated first last member.2) → Dated first last (.table heading members)
  | empty {first last : Nat} : Dated first last (.tables [])
  | element {first middle number last : Nat} {elements : List (Heading × Members)}
      {heading : Heading} {members : Members} : Dated first middle (.tables elements) →
      heading.position = some number → first ≤ number → middle ≤ number → number ≤ last →
      (∀ member ∈ members, Dated number last member.2) →
      Dated first last (.tables (elements ++ [(heading, members)]))

theorem Item.Dated.mono {first last later : Nat} {item : Item} (dated : item.Dated first last)
    (after : last ≤ later) : item.Dated first later := by
  induction dated with
  | value value => exact .value value
  | table position _ below =>
    exact .table (fun n mem => ⟨(position n mem).1, Nat.le_trans (position n mem).2 after⟩)
      fun member mem => below member mem after
  | empty => exact .empty
  | element before position from_ middle number _ _ below =>
    exact .element before position from_ middle (Nat.le_trans number after)
      fun member mem => below member mem after

theorem blocksOfElements_concat (row : List Key) (elements : List (Heading × Members))
    (heading : Heading) (members : Members) :
    blocksOfElements row (elements ++ [(heading, members)]) = blocksOfElements row elements ++
      (⟨heading, row, true, linesBelow [] members⟩ :: blocksBelow row members) := by
  rw [blocksOfElements_eq_flatMap, blocksOfElements_eq_flatMap, List.flatMap_append,
    List.flatMap_singleton]

/-- The numbers of the blocks of an item lie in its range. -/
theorem Item.Dated.position {first last : Nat} {item : Item} (dated : item.Dated first last)
    (row : List Key) :
    ∀ block ∈ item.blocksAt row, ∀ n ∈ block.heading.position, first ≤ n ∧ n ≤ last := by
  induction dated generalizing row with
  | @value first last item value =>
    cases item with
    | table => cases value
    | tables => cases value
    | _ => nofun
  | @table first last heading members position _ below =>
    rw [Item.blocksAt, List.forall_mem_append, blocksBelow_eq_flatMap]
    constructor
    · split
      · nofun
      · rw [List.forall_mem_singleton]
        exact position
    · intro block mem
      obtain ⟨member, memMember, mem⟩ := List.mem_flatMap.mp mem
      exact below member memMember _ block mem
  | empty => nofun
  | @element first middle number last elements heading members _ position from_ after upTo _ ih below =>
    rw [Item.blocksAt, blocksOfElements_concat, List.forall_mem_append, List.forall_mem_cons,
      blocksBelow_eq_flatMap]
    refine ⟨fun block mem n numbered => ?_, fun n numbered => ?_, fun block mem n numbered => ?_⟩
    · have := ih row block mem n numbered
      omega
    · rw [position] at numbered
      cases numbered
      omega
    · obtain ⟨member, memMember, mem⟩ := List.mem_flatMap.mp mem
      have := below member memMember _ block mem n numbered
      omega

variable {Value : Item → Prop}

/-- Whatever is to be seen in a sound tree has a number. -/
theorem position_of_visible {item : Item} (sound : item.Sound Value) (row : List Key) :
    ∀ block ∈ item.blocksAt row, block.isVisible = true → ∃ n, block.heading.position = some n := by
  induction sound generalizing row with
  | @value item value =>
    cases item with
    | table => cases value
    | tables => cases value
    | _ => nofun
  | @table heading members proper _ _ ih =>
    rw [Item.blocksAt, List.forall_mem_append, blocksBelow_eq_flatMap]
    constructor
    · split
      · nofun
      · next plain =>
        rw [List.forall_mem_singleton]
        intro visible
        cases implicit : heading.implicit with
        | false => exact Option.isSome_iff_exists.mp (proper.position implicit)
        | true =>
          have headed := proper.noLine implicit (by simpa using plain)
          simp [Block.isVisible, implicit, Members.linesBelow_eq_nil headed] at visible
    · intro block mem
      obtain ⟨member, memMember, mem⟩ := List.mem_flatMap.mp mem
      exact ih member memMember _ block mem
  | @tables elements _ headings _ _ ih =>
    rw [Item.blocksAt, blocksOfElements_eq_flatMap]
    intro block mem
    obtain ⟨element, memElement, mem⟩ := List.mem_flatMap.mp mem
    obtain ⟨proper, own⟩ := headings element memElement
    rcases List.mem_cons.mp mem with rfl | mem
    · exact fun _ => Option.isSome_iff_exists.mp (proper.position own)
    · rw [blocksBelow_eq_flatMap] at mem
      obtain ⟨member, memMember, mem⟩ := List.mem_flatMap.mp mem
      exact ih element memElement member memMember _ block mem

namespace Block

/-- Blocks with numbers in order keep their places. -/
theorem keeps_of_le {first second : Block} {n : Nat}
    (position : first.isVisible = true → ∃ m, first.heading.position = some m ∧ m ≤ n)
    (position' : second.isVisible = true → ∃ m, second.heading.position = some m ∧ n ≤ m) :
    first.Keeps second := by
  cases visible : first.isVisible with
  | false => exact keeps_of_hidden (Or.inl visible)
  | true =>
    cases visible' : second.isVisible with
    | false => exact keeps_of_hidden (Or.inr visible')
    | true =>
      obtain ⟨m, numbered, upTo⟩ := position visible
      obtain ⟨m', numbered', from_⟩ := position' visible'
      exact Or.inl ⟨m, m', numbered, numbered', by omega⟩

end Block

mutual

/-- What stands on the lines of an item is a value. -/
theorem isValue_of_mem_linesAt {row : List Key} {key : Key} :
    ∀ item : Item, ∀ line ∈ item.linesAt row key, line.2.2.isValue = true
  | .scalar .., _, mem => by
    cases List.mem_singleton.mp mem
    rfl
  | .array .., _, mem => by
    cases List.mem_singleton.mp mem
    rfl
  | .inline .., _, mem => by
    cases List.mem_singleton.mp mem
    rfl
  | .tables _, _, mem => by cases mem
  | .table heading members, line, mem => by
    rw [Item.linesAt] at mem
    split at mem
    · exact isValue_of_mem_linesBelow members line mem
    · cases mem

theorem isValue_of_mem_linesBelow {row : List Key} :
    ∀ members : Members, ∀ line ∈ linesBelow row members, line.2.2.isValue = true
  | [], _, mem => by cases mem
  | (_, item) :: rest, line, mem => by
    rw [linesBelow, List.mem_append] at mem
    rcases mem with own | later
    · exact isValue_of_mem_linesAt item line own
    · exact isValue_of_mem_linesBelow rest line later

end

/-- Blocks below different keys of a table keep their places, if those below each key do. -/
theorem pairwise_blocksBelow {members : Members} (proper : members.Proper)
    (each : ∀ member ∈ members, (member.2.blocksAt [member.1]).Pairwise Block.Keeps) :
    (blocksBelow [] members).Pairwise Block.Keeps := by
  rw [blocksBelow_eq_flatMap, List.pairwise_flatMap]
  refine ⟨each, (List.pairwise_map.mp proper.distinct).imp ?_⟩
  intro member other different block mem block' mem'
  obtain ⟨more, row⟩ := row_of_mem_blocksAt mem
  obtain ⟨others, row'⟩ := row_of_mem_blocksAt mem'
  exact Block.keeps_of_ne row row' different

theorem pairwise_under {members : Members}
    (below : (blocksBelow [] members).Pairwise Block.Keeps) (key : Key) :
    (blocksBelow [key] members).Pairwise Block.Keeps := by
  rw [blocksBelow_singleton, List.pairwise_map]
  exact below.imp_of_mem fun mem mem' keeps => keeps.under (row_ne_nil mem) (row_ne_nil mem') key

/-- The header of a table keeps its place before what is below it. -/
theorem keeps_header (heading : Heading) (key : Key) (members : Members) :
    ∀ block ∈ blocksBelow [key] members,
      Block.Keeps ⟨heading, [key], false, linesBelow [] members⟩ block := by
  rw [blocksBelow_singleton]
  exact List.forall_mem_map.mpr fun block mem =>
    Block.keeps_below (isValue_of_mem_linesBelow members) (row_ne_nil mem)

/-- The blocks of an item keep their places. -/
theorem pairwise_blocksAt {first last : Nat} {item : Item} (dated : item.Dated first last)
    (sound : item.Sound Value) (key : Key) : (item.blocksAt [key]).Pairwise Block.Keeps := by
  induction dated generalizing key with
  | @value first last item value =>
    cases item with
    | table => cases value
    | tables => cases value
    | _ => exact .nil
  | @table first last heading members _ _ ih =>
    obtain ⟨proper, soundBelow⟩ := sound.of_table
    have below := pairwise_blocksBelow soundBelow.proper fun member mem =>
      ih member mem (soundBelow.items member mem) member.1
    rw [Item.blocksAt]
    split
    · exact pairwise_under below key
    · rw [List.singleton_append, List.pairwise_cons]
      exact ⟨keeps_header heading key members, pairwise_under below key⟩
  | empty => exact .nil
  | @element first middle number last elements heading members before position _ after _ below ihBefore ih =>
    have positions := position_of_visible sound [key]
    rw [Item.blocksAt, blocksOfElements_concat, List.forall_mem_append] at positions
    rw [Item.blocksAt, blocksOfElements_concat, List.pairwise_append]
    cases sound with
    | value no => cases no
    | tables _ headings propers items =>
      rw [List.forall_mem_append, List.forall_mem_singleton] at headings propers items
      have first : (blocksOfElements [key] elements).Pairwise Block.Keeps := by
        rcases eq_or_ne elements [] with rfl | some
        · exact .nil
        · exact ihBefore (.tables some headings.1 propers.1 items.1) key
      have last := pairwise_blocksBelow propers.2 fun member mem =>
        ih member mem (items.2 member mem) member.1
      have upTo : ∀ block ∈ blocksOfElements [key] elements, block.isVisible = true →
          ∃ n, block.heading.position = some n ∧ n ≤ number := by
        intro block mem visible
        obtain ⟨n, numbered⟩ := positions.1 block mem visible
        have := before.position [key] block mem n numbered
        exact ⟨n, numbered, by omega⟩
      have onwards : ∀ block ∈ blocksBelow [key] members, block.isVisible = true →
          ∃ n, block.heading.position = some n ∧ number ≤ n := by
        intro block mem visible
        obtain ⟨n, numbered⟩ := positions.2 block (List.mem_cons_of_mem _ mem) visible
        rw [blocksBelow_eq_flatMap] at mem
        obtain ⟨member, memMember, mem⟩ := List.mem_flatMap.mp mem
        exact ⟨n, numbered, ((below member memMember).position _ block mem n numbered).1⟩
      refine ⟨first, List.pairwise_cons.mpr ⟨fun block mem => ?_, pairwise_under last key⟩, ?_⟩
      · exact Block.keeps_of_le (fun _ => ⟨number, position, Nat.le_refl _⟩) (onwards block mem)
      · intro block mem block' mem'
        rcases List.mem_cons.mp mem' with rfl | mem'
        · exact Block.keeps_of_le (upTo block mem) fun _ => ⟨number, position, Nat.le_refl _⟩
        · exact Block.keeps_of_le (upTo block mem) (onwards block' mem')

end StyleMonitor.Toml
