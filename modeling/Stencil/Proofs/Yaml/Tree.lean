import Stencil.Yaml.Node

/-!
# Trees that are read back

A tree of scalars, sequences and mappings without anchors, aliases and tags has one form in lexemes of block
collections, and one in events. The grammar turns the first into the second, and the second is put together to the tree
again.

- **`isExpanded`**: the lexemes of a node are expanded into its events, one lexeme at a time.
- **`isAssembled`**: the steps of a node add the node to the collection around it.
- **`ofEvents_events`**, **`ofLexemes_lexemes`**: a tree in block collections is read back.
-/

namespace Stencil
namespace Yaml

/-- Neither tags nor aliases stand in the node, and nothing is cut. -/
inductive Node.IsBare : Node → Prop
  | scalar {s : Scalar} : s.tag = none → IsBare (.scalar s)
  | sequence {items : List Node} : (∀ n ∈ items, IsBare n) → IsBare (.sequence items)
  | mapping {fields : List (Node × Node)} :
    (∀ f ∈ fields, IsBare f.1) → (∀ f ∈ fields, IsBare f.2) → IsBare (.mapping fields)

/-- A plain scalar. -/
def Node.plain (text : String) : Node := .scalar ⟨text, true, none⟩

/-- A scalar in quotes. -/
def Node.inQuotes (text : String) : Node := .scalar ⟨text, false, none⟩

theorem isBare_plain (text : String) : (Node.plain text).IsBare := .scalar rfl

theorem isBare_inQuotes (text : String) : (Node.inQuotes text).IsBare := .scalar rfl

/-! ## A tree in lexemes and in steps -/

mutual

/-- The node in block collections. -/
def Node.lexemes : Node → List Lexeme
  | .scalar s => [.scalar s.text s.isPlain]
  | .sequence items => .blockSequence :: (itemLexemes items ++ [.blockEnd])
  | .mapping fields => .blockMapping :: (fieldLexemes fields ++ [.blockEnd])
  | .alias _ | .cut => []

/-- The items of a block sequence. -/
def itemLexemes : List Node → List Lexeme
  | [] => []
  | n :: ns => .dash :: (n.lexemes ++ itemLexemes ns)

/-- The fields of a block mapping. -/
def fieldLexemes : List (Node × Node) → List Lexeme
  | [] => []
  | (k, v) :: rest => .key :: (k.lexemes ++ .value :: (v.lexemes ++ fieldLexemes rest))

end

mutual

/-- The node step by step. -/
def Node.steps : Node → List Step
  | .scalar s => [.scalar s]
  | .sequence items => .sequenceStart :: (itemSteps items ++ [.sequenceEnd])
  | .mapping fields => .mappingStart :: (fieldSteps fields ++ [.mappingEnd])
  | .alias _ | .cut => []

/-- The items of a sequence step by step. -/
def itemSteps : List Node → List Step
  | [] => []
  | n :: ns => n.steps ++ itemSteps ns

/-- The fields of a mapping step by step. -/
def fieldSteps : List (Node × Node) → List Step
  | [] => []
  | (k, v) :: rest => k.steps ++ (v.steps ++ fieldSteps rest)

end

/-- The event of a step without an anchor. -/
def Step.event? : Step → Option Event
  | .scalar s => some (.scalar none s)
  | .alias _ => none
  | .sequenceStart => some (.sequenceStart none)
  | .sequenceEnd => some .sequenceEnd
  | .mappingStart => some (.mappingStart none)
  | .mappingEnd => some .mappingEnd

/-- The events of steps without anchors. -/
def events (ss : List Step) : List Event := ss.filterMap Step.event?

@[simp] theorem events_append (ss ss' : List Step) : events (ss ++ ss') = events ss ++ events ss' :=
  List.filterMap_append

/-! ## Expansion -/

section Expansion

variable {hs : Handles} {g : Goal} {gs gs' gs'' : List Goal} {ls ls' ls'' : List Lexeme} {es es' : List Event}

/-- The goals in front of the lexemes give the events and leave other goals in front of other lexemes. Every expansion
uses a lexeme. -/
def Expands (hs : Handles) (gs : List Goal) (ls : List Lexeme) (es : List Event) (gs' : List Goal) (ls' : List Lexeme) :
    Prop :=
  ∀ n, expandAll hs (n + ls.length) gs ls =
    (es ++ (expandAll hs (n + ls'.length) gs' ls').1, (expandAll hs (n + ls'.length) gs' ls').2)

theorem Expands.trans (h : Expands hs gs ls es gs' ls') (h' : Expands hs gs' ls' es' gs'' ls'') :
    Expands hs gs ls (es ++ es') gs'' ls'' := by
  intro n
  rw [h, h', List.append_assoc]

theorem expands_of_expand {l : Lexeme} (goals : List Goal) (h : g.expand hs l = some ⟨true, es, goals⟩) :
    Expands hs (g :: gs) (l :: ls) es (goals ++ gs) ls := by
  intro n
  rw [List.length_cons, ← Nat.add_assoc, expandAll, h]
  rfl

/-- The goal takes a node in block collections. -/
def Goal.TakesNode (g : Goal) : Prop := g = .slot .item ∨ g = .slot .field ∨ g = .node .block .none

theorem Goal.TakesNode.expand_scalar (h : g.TakesNode) (text : String) (isPlain : Bool) :
    g.expand hs (.scalar text isPlain) = some ⟨true, [.scalar none ⟨text, isPlain, none⟩], []⟩ := by
  rcases h with rfl | rfl | rfl <;> rfl

theorem Goal.TakesNode.expand_sequence (h : g.TakesNode) :
    g.expand hs .blockSequence = some ⟨true, [.sequenceStart none], [.items]⟩ := by
  rcases h with rfl | rfl | rfl <;> rfl

theorem Goal.TakesNode.expand_mapping (h : g.TakesNode) :
    g.expand hs .blockMapping = some ⟨true, [.mappingStart none], [.fields]⟩ := by
  rcases h with rfl | rfl | rfl <;> rfl

/-- The node is expanded from its lexemes, whatever comes behind it. -/
def IsExpanded (hs : Handles) (n : Node) : Prop :=
  ∀ (g : Goal), g.TakesNode → ∀ (gs : List Goal) (ls : List Lexeme),
    Expands hs (g :: gs) (n.lexemes ++ ls) (events n.steps) gs ls

theorem expands_items {items : List Node} (h : ∀ n ∈ items, IsExpanded hs n) :
    Expands hs (.items :: gs) (itemLexemes items ++ .blockEnd :: ls) (events (itemSteps items ++ [.sequenceEnd])) gs
      ls := by
  induction items with
  | nil => exact expands_of_expand [] rfl
  | cons n rest ih =>
    obtain ⟨hn, hrest⟩ := List.forall_mem_cons.mp h
    have hdash : Expands hs (.items :: gs) (.dash :: (n.lexemes ++ (itemLexemes rest ++ .blockEnd :: ls))) []
        (.slot .item :: .items :: gs) (n.lexemes ++ (itemLexemes rest ++ .blockEnd :: ls)) :=
      expands_of_expand [.slot .item, .items] rfl
    simpa [itemLexemes, itemSteps] using hdash.trans ((hn _ (.inl rfl) _ _).trans (ih hrest))

theorem expands_fields {fields : List (Node × Node)} (hkeys : ∀ f ∈ fields, IsExpanded hs f.1)
    (hvalues : ∀ f ∈ fields, IsExpanded hs f.2) :
    Expands hs (.fields :: gs) (fieldLexemes fields ++ .blockEnd :: ls) (events (fieldSteps fields ++ [.mappingEnd])) gs
      ls := by
  induction fields with
  | nil => exact expands_of_expand [] rfl
  | cons f rest ih =>
    obtain ⟨k, v⟩ := f
    obtain ⟨hk, hkeys⟩ := List.forall_mem_cons.mp hkeys
    obtain ⟨hv, hvalues⟩ := List.forall_mem_cons.mp hvalues
    let after := fieldLexemes rest ++ .blockEnd :: ls
    have hkey : Expands hs (.fields :: gs) (.key :: (k.lexemes ++ .value :: (v.lexemes ++ after))) []
        (.slot .field :: .fieldValue :: .fields :: gs) (k.lexemes ++ .value :: (v.lexemes ++ after)) :=
      expands_of_expand [.slot .field, .fieldValue, .fields] rfl
    have hvalue : Expands hs (.fieldValue :: .fields :: gs) (.value :: (v.lexemes ++ after)) []
        (.slot .field :: .fields :: gs) (v.lexemes ++ after) := expands_of_expand [.slot .field] rfl
    have hfield := hkey.trans ((hk _ (.inr (.inl rfl)) _ _).trans (hvalue.trans (hv _ (.inr (.inl rfl)) _ _)))
    simpa [fieldLexemes, fieldSteps, after] using hfield.trans (ih hkeys hvalues)

/-- **Expansion.** The lexemes of a node are expanded into its events. -/
theorem isExpanded {n : Node} (h : n.IsBare) : IsExpanded hs n := by
  induction h with
  | @scalar s htag =>
    intro g hg gs ls
    obtain ⟨text, isPlain, tag⟩ := s
    obtain rfl : tag = none := htag
    exact expands_of_expand [] (hg.expand_scalar text isPlain)
  | @sequence items _ ih =>
    intro g hg gs ls
    have hstart : Expands hs (g :: gs) (.blockSequence :: (itemLexemes items ++ .blockEnd :: ls)) [.sequenceStart none]
        (.items :: gs) (itemLexemes items ++ .blockEnd :: ls) := expands_of_expand [.items] hg.expand_sequence
    have hitems := hstart.trans (expands_items ih)
    simpa [Node.lexemes, Node.steps, events, List.filterMap_cons, Step.event?] using hitems
  | @mapping fields _ _ ihkeys ihvalues =>
    intro g hg gs ls
    have hstart : Expands hs (g :: gs) (.blockMapping :: (fieldLexemes fields ++ .blockEnd :: ls)) [.mappingStart none]
        (.fields :: gs) (fieldLexemes fields ++ .blockEnd :: ls) := expands_of_expand [.fields] hg.expand_mapping
    have hfields := hstart.trans (expands_fields ihkeys ihvalues)
    simpa [Node.lexemes, Node.steps, events, List.filterMap_cons, Step.event?] using hfields

end Expansion

/-! ## Assembly -/

/-- The steps of the node add it to the collection around it. -/
def IsAssembled (n : Node) : Prop :=
  ∀ (ss : List Step) (f : Frame) (fs : List Frame), assemble (n.steps ++ ss) (f :: fs) = assemble ss (f.add n :: fs)

theorem assemble_items {items : List Node} (h : ∀ n ∈ items, IsAssembled n) (before : List Node) (ss : List Step)
    (fs : List Frame) :
    assemble (itemSteps items ++ ss) (.sequence before :: fs) =
      assemble ss (.sequence (items.reverse ++ before) :: fs) := by
  induction items generalizing before with
  | nil => rfl
  | cons n rest ih =>
    obtain ⟨hn, hrest⟩ := List.forall_mem_cons.mp h
    simp [itemSteps, hn _, ih hrest, Frame.add]

theorem assemble_fields {fields : List (Node × Node)} (hkeys : ∀ f ∈ fields, IsAssembled f.1)
    (hvalues : ∀ f ∈ fields, IsAssembled f.2) (before : List (Node × Node)) (ss : List Step) (fs : List Frame) :
    assemble (fieldSteps fields ++ ss) (.mapping before none :: fs) =
      assemble ss (.mapping (fields.reverse ++ before) none :: fs) := by
  induction fields generalizing before with
  | nil => rfl
  | cons f rest ih =>
    obtain ⟨k, v⟩ := f
    obtain ⟨hk, hkeys⟩ := List.forall_mem_cons.mp hkeys
    obtain ⟨hv, hvalues⟩ := List.forall_mem_cons.mp hvalues
    simp [fieldSteps, hk _, hv _, ih hkeys hvalues, Frame.add]

/-- **Assembly.** The steps of a node add the node to the collection around it. -/
theorem isAssembled {n : Node} (h : n.IsBare) : IsAssembled n := by
  induction h with
  | scalar _ =>
    intro ss f fs
    rfl
  | sequence _ ih =>
    intro ss f fs
    simp [Node.steps, assemble, assemble_items ih, Frame.close]
  | mapping _ _ ihkeys ihvalues =>
    intro ss f fs
    simp [Node.steps, assemble, assemble_fields ihkeys ihvalues, Frame.close]

/-- A tree is put together from its steps. -/
theorem assemble_steps {n : Node} (h : n.IsBare) : assemble n.steps [] = n := by
  cases h with
  | scalar _ => rfl
  | sequence hitems =>
    have hadd := assemble_items (fun m hm => isAssembled (hitems m hm)) [] [.sequenceEnd] []
    simp [Node.steps, assemble, hadd, Frame.close]
  | mapping hkeys hvalues =>
    have hadd := assemble_fields (fun f hf => isAssembled (hkeys f hf)) (fun f hf => isAssembled (hvalues f hf)) []
      [.mappingEnd] []
    simp [Node.steps, assemble, hadd, Frame.close]

/-! ## Documents -/

mutual

/-- There are no aliases among the steps of a node, so each has an event. -/
theorem Node.isSome_of_mem_steps : ∀ (n : Node), ∀ s ∈ n.steps, s.event?.isSome = true
  | .scalar _, s, h => by
    rw [List.mem_singleton.mp h]
    rfl
  | .sequence items, s, h => by
    have hitems := isSome_of_mem_itemSteps items
    simp only [Node.steps, List.mem_cons, List.mem_append, List.not_mem_nil, or_false] at h
    rcases h with rfl | h | rfl
    · rfl
    · exact hitems s h
    · rfl
  | .mapping fields, s, h => by
    have hfields := isSome_of_mem_fieldSteps fields
    simp only [Node.steps, List.mem_cons, List.mem_append, List.not_mem_nil, or_false] at h
    rcases h with rfl | h | rfl
    · rfl
    · exact hfields s h
    · rfl
  | .alias _, _, h => absurd h List.not_mem_nil
  | .cut, _, h => absurd h List.not_mem_nil

theorem isSome_of_mem_itemSteps : ∀ (items : List Node), ∀ s ∈ itemSteps items, s.event?.isSome = true
  | [], _, h => absurd h List.not_mem_nil
  | n :: rest, s, h => (List.mem_append.mp h).elim (n.isSome_of_mem_steps s) (isSome_of_mem_itemSteps rest s)

theorem isSome_of_mem_fieldSteps : ∀ (fields : List (Node × Node)), ∀ s ∈ fieldSteps fields, s.event?.isSome = true
  | [], _, h => absurd h List.not_mem_nil
  | (k, v) :: rest, s, h => (List.mem_append.mp h).elim (k.isSome_of_mem_steps s) fun h =>
    (List.mem_append.mp h).elim (v.isSome_of_mem_steps s) (isSome_of_mem_fieldSteps rest s)

end

theorem numbered_cons {s : Step} {e : Event} (h : s.event? = some e) (names : AnchorNames) (es : List Event) :
    numbered names (e :: es) = (none, s) :: numbered names es := by
  cases s <;> cases h <;> rfl

theorem numbered_events {ss : List Step} (h : ∀ s ∈ ss, s.event?.isSome = true) (names : AnchorNames) :
    numbered names (events ss) = ss.map fun s => (none, s) := by
  induction ss with
  | nil => rfl
  | cons s rest ih =>
    obtain ⟨hs, hrest⟩ := List.forall_mem_cons.mp h
    obtain ⟨e, he⟩ := Option.isSome_iff_exists.mp hs
    rw [events, List.filterMap_cons_some he, numbered_cons he, List.map_cons]
    exact congrArg _ (ih hrest)

theorem anchored_map (ss : List Step) (known : List (Nat × Node)) :
    anchored (ss.map fun s => (none, s)) known = known := by
  induction ss with
  | nil => rfl
  | cons s rest ih => exact ih

/-- **A tree without aliases** is the document of its events. -/
theorem ofEvents_events {n : Node} (h : n.IsBare) : Document.ofEvents ⟨events n.steps, true⟩ = ⟨n, [], true⟩ := by
  have hsome := n.isSome_of_mem_steps
  have hlen : (events n.steps).length = n.steps.length := by
    rw [events, List.length_filterMap_eq_countP]
    exact List.countP_eq_length.mpr hsome
  simp [Document.ofEvents, numbered_events hsome, anchored_map, hlen, Function.comp_def, assemble_steps h]

/-- **A tree in block collections** is read as its events. -/
theorem ofLexemes_lexemes {n : Node} (h : n.IsBare) :
    EventStream.ofLexemes (n.lexemes ++ [.streamEnd]) = ⟨events n.steps, true⟩ := by
  have hgoal : EventStream.ofGoal defaultHandles (.node .block .none) (n.lexemes ++ [.streamEnd]) =
      ⟨events n.steps, true⟩ := by
    obtain ⟨m, hm⟩ : ∃ m, expansionBound (n.lexemes ++ [.streamEnd]) = m + (n.lexemes ++ [Lexeme.streamEnd]).length :=
      ⟨_, (Nat.sub_add_cancel (by simp [expansionBound]; omega)).symm⟩
    rw [EventStream.ofGoal, hm, isExpanded h _ (.inr (.inr rfl))]
    simp [expandAll, isRest]
  cases h <;> exact hgoal

end Yaml
end Stencil
