import Stencil.Yaml.Event

/-!
# Nodes

A document as a tree. Text that stops making sense somewhere still has a tree: its nodes up to there, with a `cut` where
the next node would be. Anchors are numbered in the order in which their names first occur, and an alias holds such a
number. A name that is used for a second anchor gets the number of the next new name, so two anchors can share a number;
the last of them is the one that counts.

Anchors, aliases and the end of a document are taken as `serde_yaml` 0.9 takes them, with one exception: it gives up
once it has followed more than a hundred times as many aliases as the document has events, and here they are followed
without a limit. Only hundreds of aliases to a mapping with hundreds of aliases for keys come that far.
-/

namespace Stencil
namespace Yaml

/-- A node of a document. -/
inductive Node
  | scalar (s : Scalar)
  | sequence (items : List Node)
  /-- Keys with their values. -/
  | mapping (fields : List (Node × Node))
  /-- The node whose anchor has the number. -/
  | alias (anchor : Nat)
  /-- The text stops making sense here. -/
  | cut

/-! ## Anchors -/

/-- The number of each anchor name. -/
abbrev AnchorNames := List (String × Nat)

/-- The names with one more anchor; of two anchors of one name the later counts. -/
def AnchorNames.add (names : AnchorNames) (name : String) : AnchorNames :=
  (name, names.length) :: names.filter (·.1 != name)

/-- An event with numbers in place of anchor names. -/
inductive Step
  | scalar (s : Scalar)
  | alias (anchor : Nat)
  | sequenceStart
  | sequenceEnd
  | mappingStart
  | mappingEnd
  deriving DecidableEq

/-- The anchor of an event. -/
def Event.anchor? : Event → Option String
  | .scalar anchor _ | .sequenceStart anchor | .mappingStart anchor => anchor
  | _ => none

/-- The event with numbers in place of names, unless it is an alias whose name is unknown. -/
def Event.step? (names : AnchorNames) : Event → Option Step
  | .scalar _ s => some (.scalar s)
  | .alias name => (names.lookup name).map .alias
  | .sequenceStart _ => some .sequenceStart
  | .sequenceEnd => some .sequenceEnd
  | .mappingStart _ => some .mappingStart
  | .mappingEnd => some .mappingEnd

/-- The steps of the events, each with the number of its anchor, up to the first alias whose name is unknown. -/
def numbered (names : AnchorNames) : List Event → List (Option Nat × Step)
  | [] => []
  | e :: es =>
    match e.step? names with
    | none => []
    | some s =>
      match e.anchor? with
      | none => (none, s) :: numbered names es
      | some name => (some names.length, s) :: numbered (names.add name) es

/-! ## Trees -/

/-- A collection that has been begun: what has been read of it, the last part first. -/
inductive Frame
  | sequence (items : List Node)
  | mapping (fields : List (Node × Node)) (key : Option Node)

/-- The frame with one more node. In a mapping keys and values take turns. -/
def Frame.add : Frame → Node → Frame
  | .sequence items, n => .sequence (n :: items)
  | .mapping fields none, n => .mapping fields (some n)
  | .mapping fields (some k), n => .mapping ((k, n) :: fields) none

/-- The collection as it stands. A key without a value has a cut for a value. -/
def Frame.close : Frame → Node
  | .sequence items => .sequence items.reverse
  | .mapping fields none => .mapping fields.reverse
  | .mapping fields (some k) => .mapping ((k, .cut) :: fields).reverse

/-- The tree that the steps make inside the collections that have been begun, the innermost first. -/
def assemble : List Step → List Frame → Node
  | [], frames => frames.foldl (fun n f => (f.add n).close) .cut
  | .scalar s :: rest, frames =>
    match frames with
    | [] => .scalar s
    | f :: fs => assemble rest (f.add (.scalar s) :: fs)
  | .alias anchor :: rest, frames =>
    match frames with
    | [] => .alias anchor
    | f :: fs => assemble rest (f.add (.alias anchor) :: fs)
  | .sequenceStart :: rest, frames => assemble rest (.sequence [] :: frames)
  | .mappingStart :: rest, frames => assemble rest (.mapping [] none :: frames)
  | .sequenceEnd :: rest, frames | .mappingEnd :: rest, frames =>
    match frames with
    | [] => .cut
    | [f] => f.close
    | f :: g :: fs => assemble rest (g.add f.close :: fs)

/-- The nodes that have an anchor, each with the number of its anchor, behind those that are known already. The last one
comes first. -/
def anchored : List (Option Nat × Step) → List (Nat × Node) → List (Nat × Node)
  | [], known => known
  | (none, _) :: rest, known => anchored rest known
  | (some anchor, s) :: rest, known => anchored rest ((anchor, assemble (s :: rest.map (·.2)) []) :: known)

/-! ## Documents -/

/-- A document: its tree, the nodes that aliases stand for, and whether the text makes sense to its end and holds no
further document. -/
structure Document where
  root : Node
  anchors : List (Nat × Node)
  isSound : Bool

namespace Document

/-- The document that the events make. -/
def ofEvents (s : EventStream) : Document :=
  let steps := numbered [] s.events
  ⟨assemble (steps.map (·.2)) [], anchored steps [], s.isComplete && steps.length == s.events.length⟩

/-- Reads text. -/
def read (text : String) : Document := ofEvents (.ofLexemes (lexemes text.toList))

/-- The node itself or, for an alias, the node that it stands for. Any number of aliases may be followed. -/
def target (d : Document) : Node → Node
  | .alias anchor => (d.anchors.lookup anchor).getD .cut
  | n => n

end Document
end Yaml
end Stencil
