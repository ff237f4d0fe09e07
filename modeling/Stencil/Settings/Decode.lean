import Stencil.Settings.Basic
import Stencil.Yaml.Node
import Stencil.Yaml.Flaw

/-!
# Settings from YAML

A configuration is a mapping with the fields `output_root` and `templates`, both of which may be missing; each item of
`templates` is a mapping with the fields `path` and `body`, which must be there. Other fields are passed over. A field
that is there twice is a flaw. Nodes are looked at in the order of the text, and the first flaw counts, be it one of the
data or the place where the text stops making sense.

This is how the decoders that `serde` 1 derives for these mappings take them from `serde_yaml` 0.9: what they ask for,
in which order, what stands for a missing value, and when a field that does not count is passed over.
-/

namespace Stencil
namespace Settings

open Yaml (Node Document Flaw Scalar)

mutual

/-- Nothing is cut in the node. -/
def isWhole : Node → Bool
  | .scalar _ | .alias _ => true
  | .sequence items => areWhole items
  | .mapping fields => areWholePairs fields
  | .cut => false

/-- Nothing is cut in the nodes. -/
def areWhole : List Node → Bool
  | [] => true
  | n :: ns => isWhole n && areWhole ns

/-- Nothing is cut in the fields. -/
def areWholePairs : List (Node × Node) → Bool
  | [] => true
  | (k, v) :: rest => isWhole k && isWhole v && areWholePairs rest

end

/-- The flaw of a node that is not of the kind that is asked for. -/
def mismatch : Node → Flaw
  | .cut => .unreadable
  | _ => .wrongKind

/-- The text of a scalar. -/
def decodeText (d : Document) (n : Node) : Except Flaw String :=
  match d.target n with
  | .scalar s => .ok s.text
  | n => .error (mismatch n)

/-- A plain scalar in which nothing is written. It stands for a mapping without fields or a sequence without items. -/
def isBlank (s : Scalar) : Bool := s.isPlain && s.text == ""

/-- What is written for the absence of a value. -/
def isNull (text : String) : Bool := text == "null" || text == "Null" || text == "NULL" || text == "~"

/-- The tag of the absence of a value. -/
def nullTag : String := "tag:yaml.org,2002:null"

/-- The scalar stands for the absence of a value. A scalar that is tagged so must be written so. -/
def decodeNull (s : Scalar) : Except Flaw Bool :=
  if !s.isPlain then .ok false
  else
    match s.tag with
    | none => .ok (s.text == "" || isNull s.text)
    | some tag => if tag != nullTag then .ok false else if isNull s.text then .ok true else .error .unreadable

/-- The field is given for the second time. -/
def refuseTwice {α : Type} (name : String) : Option α → Except Flaw Unit
  | some _ => .error (.duplicateField name)
  | none => .ok ()

/-- The fields of a file, with those that have been given before them. -/
def decodeFileFields (d : Document) : List (Node × Node) → Option String → Option String → Except Flaw FileSource
  | [], some path, some text => .ok ⟨path, text⟩
  | [], none, _ => .error (.missingField "path")
  | [], some _, none => .error (.missingField "body")
  | (k, v) :: rest, path, text =>
    match decodeText d k with
    | .error f => .error f
    | .ok name =>
      if name = "path" then
        match refuseTwice name path with
        | .error f => .error f
        | .ok _ =>
          match decodeText d v with
          | .error f => .error f
          | .ok path => decodeFileFields d rest (some path) text
      else if name = "body" then
        match refuseTwice name text with
        | .error f => .error f
        | .ok _ =>
          match decodeText d v with
          | .error f => .error f
          | .ok text => decodeFileFields d rest path (some text)
      else if isWhole v then decodeFileFields d rest path text
      else .error .unreadable

/-- One file. -/
def decodeFile (d : Document) (n : Node) : Except Flaw FileSource :=
  match d.target n with
  | .mapping fields => decodeFileFields d fields none none
  | .scalar s => if isBlank s then decodeFileFields d [] none none else .error .wrongKind
  | n => .error (mismatch n)

/-- The files one after another. -/
def decodeFiles (d : Document) : List Node → Except Flaw (List FileSource)
  | [] => .ok []
  | n :: ns =>
    match decodeFile d n with
    | .error f => .error f
    | .ok file =>
      match decodeFiles d ns with
      | .error f => .error f
      | .ok files => .ok (file :: files)

/-- The files of a configuration, or the absence of a value for them. -/
def decodeTemplates (d : Document) (n : Node) : Except Flaw (Option (List FileSource)) :=
  match d.target n with
  | .sequence items =>
    match decodeFiles d items with
    | .error f => .error f
    | .ok files => .ok (some files)
  | .scalar s =>
    match decodeNull s with
    | .error f => .error f
    | .ok true => .ok none
    | .ok false => if isBlank s then .ok (some []) else .error .wrongKind
  | n => .error (mismatch n)

/-- The fields of a configuration, with those that have been given before them. -/
def decodeFields (d : Document) :
    List (Node × Node) → Option Path → Option (Option (List FileSource)) → Except Flaw Settings
  | [], root, files => .ok ⟨root.getD defaultRoot, files.join⟩
  | (k, v) :: rest, root, files =>
    match decodeText d k with
    | .error f => .error f
    | .ok name =>
      if name = "output_root" then
        match refuseTwice name root with
        | .error f => .error f
        | .ok _ =>
          match decodeText d v with
          | .error f => .error f
          | .ok text => decodeFields d rest (some ⟨text⟩) files
      else if name = "templates" then
        match refuseTwice name files with
        | .error f => .error f
        | .ok _ =>
          match decodeTemplates d v with
          | .error f => .error f
          | .ok templates => decodeFields d rest root (some templates)
      else if isWhole v then decodeFields d rest root files
      else .error .unreadable

/-- What the tree of a document says. -/
def decodeRoot (d : Document) : Except Flaw Settings :=
  match d.target d.root with
  | .mapping fields => decodeFields d fields none none
  | .scalar s => if isBlank s then .ok default else .error .wrongKind
  | n => .error (mismatch n)

/-- What a document says. A flaw of the data counts before what is wrong with the text behind it. -/
def ofDocument (d : Document) : Except Flaw Settings :=
  match decodeRoot d with
  | .error f => .error f
  | .ok s => if d.isSound then .ok s else .error .unreadable

/-- What YAML text says. -/
def ofYaml (text : String) : Except Flaw Settings := ofDocument (Document.read text)

end Settings
end Stencil
