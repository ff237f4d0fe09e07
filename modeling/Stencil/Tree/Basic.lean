import Stencil.Table

/-!
# File trees

A tree is a table from locations to nodes. A location is the list of names that leads to it, the innermost name first,
so that the tail of a location is the directory around it. Every tree has the root directory, and whatever stands in a
tree stands in a directory of the tree. Only two changes are made to trees: a directory is added where nothing was, or a
file is put where no directory is (`Tree.put`).
-/

namespace Stencil

/-- The names that lead from the root to a place, the innermost first. -/
abbrev Location := List String

/-- What stands at a location. -/
inductive Tree.Node
  | directory
  | file (content : ByteArray)

instance : DecidableEq Tree.Node
  | .directory, .directory => isTrue rfl
  | .directory, .file _ => isFalse nofun
  | .file _, .directory => isFalse nofun
  | .file ⟨a⟩, .file ⟨b⟩ => if h : a = b then isTrue (by rw [h]) else isFalse (by simp [h])

/-- A tree of directories and files. -/
structure Tree where
  nodes : Table Location Tree.Node
  root_directory : nodes.get? [] = some .directory
  parent_directory : ∀ {name : String} {l : Location}, nodes.get? (name :: l) ≠ none → nodes.get? l = some .directory

namespace Tree

/-- What stands at the location, if anything does. -/
def node? (t : Tree) (l : Location) : Option Node := t.nodes.get? l

/-- Trees with the same node at every location are equal. -/
theorem ext_node? {t u : Tree} (h : ∀ l, t.node? l = u.node? l) : t = u := by
  obtain ⟨a, _, _⟩ := t
  obtain ⟨b, _, _⟩ := u
  have hab : a = b := Table.ext_get? h
  subst hab
  rfl

instance : DecidableEq Tree
  | ⟨a, _, _⟩, ⟨b, _, _⟩ =>
    if h : a = b then isTrue (by subst h; rfl) else isFalse (fun e => h (congrArg Tree.nodes e))

/-- The tree that holds only the root. -/
def empty : Tree where
  nodes := Table.empty.insert [] .directory
  root_directory := by simp
  parent_directory := by simp

@[simp] theorem node?_nil (t : Tree) : t.node? [] = some .directory := t.root_directory

/-- Puts a node under a directory: a directory anywhere, a file only where no directory is. -/
def put (t : Tree) (l : Location) (name : String) (n : Node) (hl : t.node? l = some .directory)
    (hn : t.node? (name :: l) = some .directory → n = .directory) : Tree where
  nodes := t.nodes.insert (name :: l) n
  root_directory := by simpa using t.root_directory
  parent_directory := by
    intro name' l' h
    rw [Table.get?_insert] at h ⊢
    split at h
    · next heq =>
      obtain ⟨rfl, rfl⟩ := List.cons.inj heq
      rw [if_neg (fun e => absurd (congrArg List.length e) (by simp))]
      exact hl
    · have hp := t.parent_directory h
      split
      · next heq => rw [hn (heq ▸ hp)]
      · exact hp

@[simp] theorem node?_put (t : Tree) (l : Location) (name : String) (n : Node) (hl : t.node? l = some .directory)
    (hn : t.node? (name :: l) = some .directory → n = .directory) (l' : Location) :
    (t.put l name n hl hn).node? l' = if l' = name :: l then some n else t.node? l' :=
  Table.get?_insert _ _ _ _

/-- The path that the names of a location spell, the outermost first. -/
def spell (l : Location) : String := "/".intercalate l.reverse

/-- Everything strictly below a location, as the names that lead there from it and the node, in the order of the paths
that they spell. -/
def below (t : Tree) (l : Location) : List (String × Node) :=
  let under := t.nodes.entries.filterMap fun (k, n) =>
    if l.isSuffixOf k && k != l then some (spell (k.take (k.length - l.length)), n) else none
  under.mergeSort fun p q => !Key.before q.1 p.1

end Tree
end Stencil
