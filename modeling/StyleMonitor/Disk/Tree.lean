import StyleMonitor.Text.Bytes
import StyleMonitor.Text.Order

/-!
The tree of files: which files, directories and symbolic links stand at which places. A place is
the list of names that leads to it from the root directory, which is always there. A tree is
kept as a list of places with what stands at each; no place is listed twice.
-/

namespace StyleMonitor

/-- A place in the tree of files: the names from the root down to it. -/
abbrev Place := List String

/-- What stands at a place. -/
inductive Node where
  | file (content : Bytes) (executable : Bool)
  | directory
  | link (target : String)
  deriving DecidableEq, Repr

namespace Node

/-- Whether a node is a directory. -/
def isDirectory : Node → Bool
  | directory => true
  | _ => false

end Node

/-- A tree of files. -/
structure Tree where
  nodes : List (Place × Node) := []
  deriving DecidableEq, Repr

namespace Tree

/-- What stands at a place. -/
def lookup (tree : Tree) (place : Place) : Option Node :=
  if place = [] then some .directory else tree.nodes.lookup place

/-- Takes a place off a list of nodes. -/
def eraseNode (place : Place) (nodes : List (Place × Node)) : List (Place × Node) :=
  nodes.filter fun entry => entry.1 ≠ place

/-- Takes away what stands at one place, and nothing below it. -/
def erase (tree : Tree) (place : Place) : Tree :=
  ⟨eraseNode place tree.nodes⟩

/-- Puts a node at a place, instead of what stood there. -/
def insert (tree : Tree) (place : Place) (node : Node) : Tree :=
  ⟨eraseNode place tree.nodes ++ [(place, node)]⟩

/-- Where a place goes when `source` moves to `target`. -/
def relocate (source target place : Place) : Place :=
  if source.isPrefixOf place then target ++ place.drop source.length else place

/-- Moves what stands at `source`, with all below it, to `target`, where nothing stands. -/
def move (tree : Tree) (source target : Place) : Tree :=
  ⟨tree.nodes.map fun entry => (relocate source target entry.1, entry.2)⟩

/-- Whether anything stands directly in a directory. -/
def hasEntries (tree : Tree) (place : Place) : Bool :=
  tree.nodes.any fun entry => place.isPrefixOf entry.1 && place.length < entry.1.length

/-- The order of places: name by name, a directory before what is in it. -/
def placeLe : Place → Place → Bool
  | [], _ => true
  | _ :: _, [] => false
  | a :: as, b :: bs => if a = b then placeLe as bs else Text.le a b

/-- All that stands below a place, in the order of places. Each comes with the names that lead
to it from there. -/
def below (tree : Tree) (place : Place) : List (Place × Node) :=
  let inside := tree.nodes.filter fun entry =>
    place.isPrefixOf entry.1 && place.length < entry.1.length
  (inside.map fun entry => (entry.1.drop place.length, entry.2)).mergeSort
    fun a b => placeLe a.1 b.1

/-- The names directly in a directory with what stands there, in the order of names. -/
def entries (tree : Tree) (place : Place) : List (String × Node) :=
  (tree.below place).filterMap fun entry =>
    match entry.1 with
    | [name] => some (name, entry.2)
    | _ => none

@[simp] theorem lookup_root (tree : Tree) : tree.lookup [] = some .directory := by
  simp [lookup]

theorem lookup_eraseNode_of_ne {place other : Place} (h : other ≠ place)
    (nodes : List (Place × Node)) : (eraseNode place nodes).lookup other = nodes.lookup other := by
  induction nodes with
  | nil => rfl
  | cons head rest ih =>
    obtain ⟨listed, node⟩ := head
    by_cases gone : listed = place
    · subst gone
      have differs : (other == listed) = false := by simpa using h
      simpa [eraseNode, List.lookup_cons, differs] using ih
    · simp only [eraseNode, List.filter_cons, gone, ne_eq, not_false_eq_true, decide_true,
        if_true, List.lookup_cons] at ih ⊢
      cases other == listed
      · simpa using ih
      · rfl

theorem lookup_eraseNode_self (place : Place) (nodes : List (Place × Node)) :
    (eraseNode place nodes).lookup place = none := by
  induction nodes with
  | nil => rfl
  | cons head rest ih =>
    obtain ⟨listed, node⟩ := head
    by_cases gone : listed = place
    · simpa [eraseNode, gone] using ih
    · have differs : (place == listed) = false := by simpa using Ne.symm gone
      simpa [eraseNode, gone, List.lookup_cons, differs] using ih

/-- What is put at a place stands there. -/
theorem lookup_insert_self (tree : Tree) {place : Place} (h : place ≠ []) (node : Node) :
    (tree.insert place node).lookup place = some node := by
  simp [lookup, insert, h, List.lookup_append, lookup_eraseNode_self]

/-- Putting a node at a place changes no other place. -/
theorem lookup_insert_of_ne (tree : Tree) {place other : Place} (h : other ≠ place)
    (node : Node) : (tree.insert place node).lookup other = tree.lookup other := by
  have differs : (other == place) = false := by simpa using h
  by_cases root : other = []
  · simp [root]
  · simp [lookup, insert, root, List.lookup_append, lookup_eraseNode_of_ne h, differs,
      List.lookup_cons]

end Tree

end StyleMonitor
