import Stencil.Yaml.Lexeme.Read

/-!
# Events

A document as a sequence of events: scalars, aliases, and the starts and ends of collections. Events follow from lexemes
by a grammar in which the next lexeme always decides what to do. What is still expected is a stack of goals; with the
next lexeme the top goal turns into events and further goals (`Goal.expand`).

The grammar is that of the parser of libyaml 0.2.5, which has a state for each goal.
-/

namespace Stencil
namespace Yaml

/-- A scalar: its text, whether it is plain, and its tag. -/
structure Scalar where
  text : String
  isPlain : Bool
  tag : Option String
  deriving DecidableEq

/-- A step through a document. A node other than an alias may have an anchor. -/
inductive Event
  | scalar (anchor : Option String) (s : Scalar)
  | alias (name : String)
  | sequenceStart (anchor : Option String)
  | sequenceEnd
  | mappingStart (anchor : Option String)
  | mappingEnd
  deriving DecidableEq

/-! ## Tags -/

/-- What each tag handle stands for. -/
abbrev Handles := List (String × String)

/-- The handles that are there without a directive. -/
def defaultHandles : Handles := [("!", "!"), ("!!", "tag:yaml.org,2002:")]

/-- The tag with its handle replaced by what it stands for. -/
def Handles.resolve? (hs : Handles) (handle suffix : String) : Option String :=
  if handle = "" then some suffix else (hs.lookup handle).map (· ++ suffix)

/-! ## Goals -/

/-- The places where a node may stand, or nothing at all. -/
inductive Slot
  /-- The whole of a document. -/
  | document
  /-- An item of a block sequence. -/
  | item
  /-- An item of a sequence at the margin of the mapping around it. -/
  | looseItem
  /-- A key or a value of a block mapping. -/
  | field
  /-- The key of a pair in brackets. -/
  | pairKey
  /-- The value of a pair in brackets. -/
  | pairValue
  /-- A key in braces. -/
  | flowKey
  /-- A value in braces. -/
  | flowValue
  deriving DecidableEq

/-- Nothing stands in the slot if this lexeme comes next. -/
def Slot.endsAt : Slot → Lexeme → Bool
  | .document, l => match l with
    | .version _ _ | .handle _ _ | .documentStart | .documentEnd | .streamEnd => true
    | _ => false
  | .item, l => l == .dash || l == .blockEnd
  | .looseItem, l => l == .dash || l == .key || l == .value || l == .blockEnd
  | .field, l => l == .key || l == .value || l == .blockEnd
  | .pairKey, l => l == .value || l == .comma || l == .closeBracket
  | .pairValue, l => l == .comma || l == .closeBracket
  | .flowKey, l => l == .value || l == .comma || l == .closeBrace
  | .flowValue, l => l == .comma || l == .closeBrace

/-- What may be written for a node, apart from brackets, braces and scalars. -/
inductive Style
  /-- Block collections. -/
  | block
  /-- Block collections, and a sequence at the margin of the mapping around it. -/
  | loose
  /-- Nothing. -/
  | flow
  deriving DecidableEq

/-- What may be written for a node in the slot. -/
def Slot.style : Slot → Style
  | .document | .item | .looseItem => .block
  | .field => .loose
  | .pairKey | .pairValue | .flowKey | .flowValue => .flow

/-- An anchor and a tag that stand before a node. -/
structure Properties where
  anchor : Option String
  tag : Option String
  deriving DecidableEq

/-- Neither an anchor nor a tag. -/
def Properties.none : Properties := ⟨.none, .none⟩

/-- What is expected next. -/
inductive Goal
  /-- A node, or nothing. -/
  | slot (s : Slot)
  /-- The rest of a node, behind its anchor and tag. -/
  | node (style : Style) (p : Properties)
  /-- The items of a block sequence. -/
  | items
  /-- The items of a sequence at the margin of the mapping around it. -/
  | looseItems
  /-- The fields of a block mapping. -/
  | fields
  /-- The value of a field, whose colon may be missing. -/
  | fieldValue
  /-- The items in brackets; a comma must come before all but the first. -/
  | flowItems (first : Bool)
  /-- The value of a pair in brackets. -/
  | pairValue
  /-- An event that follows whatever the next lexeme is, as long as there is one. -/
  | event (e : Event)
  /-- The fields in braces; a comma must come before all but the first. -/
  | flowFields (first : Bool)
  /-- The items in brackets, or the fields in braces, behind a comma. -/
  | flowItem
  | flowField
  /-- The value of a field in braces, whose colon may be missing. -/
  | flowValue
  /-- The value of a field in braces that has only a key. -/
  | noValue
  deriving DecidableEq

/-- What a goal turns into: whether the next lexeme has been used, the events, and the goals that take its place. -/
structure Expansion where
  uses : Bool
  events : List Event
  goals : List Goal
  deriving DecidableEq

/-- The event for a node of which nothing is written but its properties. -/
def Event.nothing (p : Properties) : Event := .scalar p.anchor ⟨"", true, p.tag⟩

/-- A tag that leaves the kind of a scalar open is none. -/
def openTag (tag : Option String) : Option String := if tag = some "!" then .none else tag

/-- A node behind its properties, decided by the next lexeme. -/
def expandNode (hs : Handles) (style : Style) (p : Properties) (l : Lexeme) : Option Expansion :=
  match l with
  | .alias name => if p = .none then some ⟨true, [.alias name], []⟩ else some ⟨false, [.nothing p], []⟩
  | .anchor name =>
    if p.anchor = .none then some ⟨true, [], [.node style { p with anchor := some name }]⟩
    else some ⟨false, [.nothing p], []⟩
  | .tag handle suffix =>
    if p.tag = .none then
      match hs.resolve? handle suffix with
      | .none => .none
      | some tag => some ⟨true, [], [.node style { p with tag := some tag }]⟩
    else some ⟨false, [.nothing p], []⟩
  | .scalar text isPlain => some ⟨true, [.scalar p.anchor ⟨text, isPlain, openTag p.tag⟩], []⟩
  | .openBracket => some ⟨true, [.sequenceStart p.anchor], [.flowItems true]⟩
  | .openBrace => some ⟨true, [.mappingStart p.anchor], [.flowFields true]⟩
  | l =>
    if l = .dash && style = .loose then some ⟨false, [.sequenceStart p.anchor], [.looseItems]⟩
    else if l = .blockSequence && style != .flow then some ⟨true, [.sequenceStart p.anchor], [.items]⟩
    else if l = .blockMapping && style != .flow then some ⟨true, [.mappingStart p.anchor], [.fields]⟩
    else if p = .none then .none
    else some ⟨false, [.nothing p], []⟩

/-- What the goal turns into when the lexeme comes next; nothing if the lexeme does not fit. -/
def Goal.expand (hs : Handles) (g : Goal) (l : Lexeme) : Option Expansion :=
  match g with
  | .slot s =>
    if s.endsAt l then
      -- What ends the empty key of a pair is used together with it.
      some ⟨s = .pairKey, [.nothing .none], []⟩
    else expandNode hs s.style .none l
  | .node style p => expandNode hs style p l
  | .items =>
    match l with
    | .dash => some ⟨true, [], [.slot .item, .items]⟩
    | .blockEnd => some ⟨true, [.sequenceEnd], []⟩
    | _ => none
  | .looseItems =>
    match l with
    | .dash => some ⟨true, [], [.slot .looseItem, .looseItems]⟩
    | _ => some ⟨false, [.sequenceEnd], []⟩
  | .fields =>
    match l with
    | .key => some ⟨true, [], [.slot .field, .fieldValue, .fields]⟩
    | .blockEnd => some ⟨true, [.mappingEnd], []⟩
    | _ => none
  | .fieldValue =>
    match l with
    | .value => some ⟨true, [], [.slot .field]⟩
    | _ => some ⟨false, [.nothing .none], []⟩
  | .flowItems first =>
    match l with
    | .closeBracket => some ⟨true, [.sequenceEnd], []⟩
    | .comma => if first then none else some ⟨true, [], [.flowItem]⟩
    | _ => if first then some ⟨false, [], [.flowItem]⟩ else none
  | .flowItem =>
    match l with
    | .closeBracket => some ⟨true, [.sequenceEnd], []⟩
    | .key => some ⟨true, [.mappingStart none], [.slot .pairKey, .pairValue, .event .mappingEnd, .flowItems false]⟩
    | _ => some ⟨false, [], [.node .flow .none, .flowItems false]⟩
  | .pairValue =>
    match l with
    | .value => some ⟨true, [], [.slot .pairValue]⟩
    | _ => some ⟨false, [.nothing .none], []⟩
  | .event e => some ⟨false, [e], []⟩
  | .flowFields first =>
    match l with
    | .closeBrace => some ⟨true, [.mappingEnd], []⟩
    | .comma => if first then none else some ⟨true, [], [.flowField]⟩
    | _ => if first then some ⟨false, [], [.flowField]⟩ else none
  | .flowField =>
    match l with
    | .closeBrace => some ⟨true, [.mappingEnd], []⟩
    | .key => some ⟨true, [], [.slot .flowKey, .flowValue, .flowFields false]⟩
    | _ => some ⟨false, [], [.node .flow .none, .noValue, .flowFields false]⟩
  | .flowValue =>
    match l with
    | .value => some ⟨true, [], [.slot .flowValue]⟩
    | _ => some ⟨false, [.nothing .none], []⟩
  | .noValue => some ⟨false, [.nothing .none], []⟩

/-- The events that follow from lexemes, in as many expansions as the number says, and the lexemes behind the last goal.
There are none of these if the lexemes end before the goals do. -/
def expandAll (hs : Handles) : Nat → List Goal → List Lexeme → List Event × Option (List Lexeme)
  | _, [], ls => ([], some ls)
  | 0, _ :: _, _ => ([], none)
  | _ + 1, _ :: _, [] => ([], none)
  | n + 1, g :: gs, l :: ls =>
    match g.expand hs l with
    | none => ([], none)
    | some x =>
      let (events, rest) := expandAll hs n (x.goals ++ gs) (if x.uses then ls else l :: ls)
      (x.events ++ events, rest)

/-! ## Documents -/

/-- A bound for the expansions that lexemes take. -/
def expansionBound (ls : List Lexeme) : Nat := 16 * (ls.length + 1)

/-- The events of the first document in a stream of lexemes. -/
structure EventStream where
  events : List Event
  /-- The document is over, and nothing follows it. -/
  isComplete : Bool

/-- Nothing but document ends and the end of the text is left. -/
def isRest : List Lexeme → Bool
  | .documentEnd :: ls => isRest ls
  | [.streamEnd] => true
  | _ => false

/-- The events of a goal, and whether nothing is left behind it. -/
def EventStream.ofGoal (hs : Handles) (g : Goal) (ls : List Lexeme) : EventStream :=
  match expandAll hs (expansionBound ls) [g] ls with
  | (events, some rest) => ⟨events, isRest rest⟩
  | (events, none) => ⟨events, false⟩

/-- The events behind directives, of which there has been one for the version or none. Only version 1.1 and 1.2 are
known, and no handle is defined twice. -/
def EventStream.ofDirectives (hs : Handles) (hasVersion : Bool) : List Lexeme → EventStream
  | .version major minor :: ls =>
    if hasVersion || major != 1 || (minor != 1 && minor != 2) then ⟨[], false⟩ else ofDirectives hs true ls
  | .handle name uri :: ls =>
    if (hs.lookup name).isSome then ⟨[], false⟩ else ofDirectives (hs ++ [(name, uri)]) hasVersion ls
  | .documentStart :: ls => ofGoal (hs ++ defaultHandles) (.slot .document) ls
  | _ => ⟨[], false⟩

/-- The events of the first document. The marker in front of it may be missing if there are no directives. Text without
any document counts as one in which nothing is written. -/
def EventStream.ofLexemes (ls : List Lexeme) : EventStream :=
  match ls with
  | [.streamEnd] => ⟨[.nothing .none], true⟩
  | .version _ _ :: _ | .handle _ _ :: _ | .documentStart :: _ => ofDirectives [] false ls
  | _ => ofGoal defaultHandles (.node .block .none) ls

end Yaml
end Stencil
