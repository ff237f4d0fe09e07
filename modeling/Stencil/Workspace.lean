import Stencil.Tree.Basic
import Stencil.Path
import Stencil.Fault

/-!
# Workspaces

A workspace is a tree with the directory from which relative paths start. A path is followed name by name, each time
from a directory: a dot stays, two dots go up, and the root is above itself. To make a directory or to write a file the
path is followed up to its last name, so nothing on the way is ever made; `ensureDirectory` makes what is missing, the
outermost directory first, and stops at the first directory that it cannot make.
-/

namespace Stencil

/-- A tree and a directory of it. -/
structure Workspace where
  tree : Tree
  here : Location
  here_directory : tree.node? here = some .directory

namespace Workspace

/-- The longest name that a directory can hold, in bytes. -/
def longestName : Nat := 255

/-- The longest path that can be followed, in bytes. -/
def longestPath : Nat := 4095

/-- An empty directory of the given name under the root, to start from. -/
def fresh (name : String) : Workspace where
  tree := Tree.empty.put [] name .directory (Tree.node?_nil _) (fun _ => rfl)
  here := [name]
  here_directory := by simp

/-- A path that can be followed at all: without NUL, not empty, not too long. -/
def usable (p : Path) : Except Fault Unit :=
  if p.text.toList.any (·.toNat == 0) then .error .nulCharacter
  else if p.text = "" then .error .notFound
  else if longestPath < p.text.utf8ByteSize then .error .nameTooLong
  else .ok ()

/-- The names between the slashes of a path, dots included. -/
def names (p : Path) : List String := (p.pieces.filter (· ≠ [])).map String.ofList

/-- Where a path starts from. -/
def origin (w : Workspace) (p : Path) : Location := if p.isAbsolute then [] else w.here

/-- From a directory to the place of a name in it, which need not be taken. -/
def step (t : Tree) (l : Location) (name : String) : Except Fault Location :=
  match t.node? l with
  | some .directory =>
    if name = "." then .ok l
    else if name = ".." then .ok l.tail
    else if longestName < name.utf8ByteSize then .error .nameTooLong
    else .ok (name :: l)
  | _ => .error .notADirectory

/-- Follows names, each of which must be there. -/
def walk (t : Tree) (l : Location) : List String → Except Fault Location
  | [] => .ok l
  | name :: rest =>
    match step t l name with
    | .error f => .error f
    | .ok l' => if t.node? l' = none then .error .notFound else walk t l' rest

/-- The location of a path, with what stands there. A path that ends in a slash leads to a directory only. -/
def find (w : Workspace) (p : Path) : Except Fault (Location × Tree.Node) :=
  match usable p with
  | .error f => .error f
  | .ok _ =>
    match walk w.tree (w.origin p) (names p) with
    | .error f => .error f
    | .ok l =>
      match w.tree.node? l with
      | none => .error .notFound
      | some n => if p.endsInSlash && n != .directory then .error .notADirectory else .ok (l, n)

/-- The path leads to a directory. -/
def isDirectory (w : Workspace) (p : Path) : Bool :=
  match w.find p with
  | .ok (_, .directory) => true
  | _ => false

/-- The bytes of the file that the path leads to. -/
def read (w : Workspace) (p : Path) : Except Fault ByteArray :=
  match w.find p with
  | .error f => .error f
  | .ok (_, .directory) => .error .isADirectory
  | .ok (_, .file content) => .ok content

/-- The place that the last name of a path stands for: its directory and, unless that name is a dot or two dots, the
name in it. The root has no last name. -/
inductive Place (t : Tree)
  /-- The path leads to a directory whatever else stands in the tree. -/
  | directory
  /-- A name in a directory. -/
  | entry (l : Location) (name : String) (h : t.node? l = some .directory)

/-- Follows a path up to its last name. -/
def locate (w : Workspace) (p : Path) : Except Fault (Place w.tree) :=
  match usable p with
  | .error f => .error f
  | .ok _ =>
    match (names p).getLast? with
    | none => .ok .directory
    | some last =>
      match walk w.tree (w.origin p) (names p).dropLast with
      | .error f => .error f
      | .ok l =>
        match h : w.tree.node? l with
        | some .directory => if last = "." ∨ last = ".." then .ok .directory else .ok (.entry l last h)
        | _ => .error .notADirectory

/-- Puts a node, leaving the directory to start from as it is. -/
def put (w : Workspace) (l : Location) (name : String) (n : Tree.Node) (hl : w.tree.node? l = some .directory)
    (hn : w.tree.node? (name :: l) = some .directory → n = .directory) : Workspace where
  tree := w.tree.put l name n hl hn
  here := w.here
  here_directory := by
    rw [Tree.node?_put]
    split
    · next h => rw [hn (h ▸ w.here_directory)]
    · exact w.here_directory

/-- Makes one directory, where nothing stands. -/
def makeDirectory (w : Workspace) (p : Path) : Except Fault Workspace :=
  match w.locate p with
  | .error f => .error f
  | .ok .directory => .error .alreadyExists
  | .ok (.entry l name hl) =>
    if longestName < name.utf8ByteSize then .error .nameTooLong
    else
      match w.tree.node? (name :: l) with
      | some _ => .error .alreadyExists
      | none => .ok (w.put l name .directory hl (fun _ => rfl))

/-- Writes a file, making it or replacing what it held. -/
def write (w : Workspace) (p : Path) (content : ByteArray) : Except Fault Workspace :=
  match w.locate p with
  | .error f => .error f
  | .ok .directory => .error .isADirectory
  | .ok (.entry l name hl) =>
    if p.endsInSlash then .error .isADirectory
    else if longestName < name.utf8ByteSize then .error .nameTooLong
    else if h : w.tree.node? (name :: l) = some .directory then .error .isADirectory
    else .ok (w.put l name (.file content) hl (fun h' => absurd h' h))

/-- Makes a directory and those above it that are missing. On a failure the directories made so far stay. -/
def ensureDirectory (w : Workspace) (p : Path) : Workspace × Option Fault :=
  if p.text = "" then (w, none)
  else
    match w.makeDirectory p with
    | .ok w' => (w', none)
    | .error .notFound =>
      match _h : p.parent? with
      | none => (w, some .notFound)
      | some q =>
        match w.ensureDirectory q with
        | (w', some f) => (w', some f)
        | (w', none) =>
          match w'.makeDirectory p with
          | .ok w'' => (w'', none)
          | .error f => (w', if w'.isDirectory p then none else some f)
    | .error f => (w, if w.isDirectory p then none else some f)
termination_by p.text.length
decreasing_by exact Path.length_lt_of_parent? _h

/-- Everything below the directory to start from, in the order of the paths. -/
def listing (w : Workspace) : List (String × Tree.Node) := w.tree.below w.here

end Workspace
end Stencil
