import Stencil.Bindings

/-!
# Values inserted one after another

Of the values that a name is given the last one counts, whatever other names are given values in between.

- **`get?_insertAll`**: what a name is bound to once pairs were inserted.
- **`get?_override`**: bindings laid over others count where they give a name a value.
-/

namespace Stencil
namespace Bindings

/-- The pairs inserted one after another, behind what is bound already. -/
def insertAll (b : Bindings) (pairs : List (String × String)) : Bindings := pairs.foldl (fun b p => b.insert p.1 p.2) b

/-- The value in the last of the pairs for the name. -/
def lastValue (pairs : List (String × String)) (name : String) : Option String := pairs.reverse.lookup name

/-- The second bindings laid over the first: their values count where both give a name one. -/
def override (b c : Bindings) : Bindings := b.insertAll c.table.entries

theorem lastValue_cons (p : String × String) (pairs : List (String × String)) (name : String) :
    lastValue (p :: pairs) name = (lastValue pairs name).or (if name = p.1 then some p.2 else none) := by
  rw [lastValue, List.reverse_cons, List.lookup_append, List.lookup_singleton]
  simp only [beq_iff_eq]
  rfl

/-- **Insertions.** A name is bound to the value in the last pair for it, or as it was if there is none. -/
theorem get?_insertAll (b : Bindings) (pairs : List (String × String)) (name : String) :
    (b.insertAll pairs).get? name = (lastValue pairs name).or (b.get? name) := by
  induction pairs generalizing b with
  | nil => rfl
  | cons p pairs ih =>
    have hstep : b.insertAll (p :: pairs) = (b.insert p.1 p.2).insertAll pairs := rfl
    rw [hstep, ih, lastValue_cons, get?_insert, Option.or_assoc]
    split <;> rfl

theorem get?_ofList (pairs : List (String × String)) (name : String) :
    (ofList pairs).get? name = lastValue pairs name := by
  have hempty := get?_insertAll empty pairs name
  rwa [get?_empty, Option.or_none] at hempty

/-- Names that get their values by a function have them whatever the order, and no other name has a value. -/
theorem lastValue_map (value : String → String) (names : List String) (name : String) :
    lastValue (names.map fun n => (n, value n)) name = if name ∈ names then some (value name) else none := by
  induction names with
  | nil => rfl
  | cons n names ih =>
    rw [List.map_cons, lastValue_cons, ih]
    by_cases hmem : name ∈ names
    · rw [if_pos hmem, if_pos (List.mem_cons_of_mem n hmem), Option.some_or]
    · rw [if_neg hmem, Option.none_or]
      by_cases hn : name = n
      · rw [if_pos hn, if_pos (hn ▸ List.mem_cons_self), hn]
      · rw [if_neg hn, if_neg fun h => (List.mem_cons.mp h).elim hn hmem]

/-- The pairs that bindings consist of hold one value for each name. -/
theorem lastValue_entries (c : Bindings) (name : String) : lastValue c.table.entries name = c.get? name := by
  cases hget : c.get? name with
  | none =>
    apply List.lookup_eq_none_iff.mpr
    intro p hp
    rw [bne_iff_ne]
    rintro rfl
    have hvalue := (Table.get?_eq_some_iff c.table).mpr (List.mem_reverse.mp hp)
    cases hget.symm.trans hvalue
  | some value =>
    have hmem := List.mem_reverse.mpr ((Table.get?_eq_some_iff c.table).mp hget)
    cases hlast : lastValue c.table.entries name with
    | none => simpa using List.lookup_eq_none_iff.mp hlast _ hmem
    | some value' =>
      obtain ⟨before, after, hsplit, -⟩ := List.lookup_eq_some_iff.mp hlast
      have hmem' : (name, value') ∈ c.table.entries.reverse := by
        rw [hsplit]
        exact List.mem_append_right _ List.mem_cons_self
      have hget' : c.get? name = some value' := (Table.get?_eq_some_iff c.table).mpr (List.mem_reverse.mp hmem')
      exact hget'.symm.trans hget

/-- **Bindings over bindings.** -/
theorem get?_override (b c : Bindings) (name : String) : (b.override c).get? name = (c.get? name).or (b.get? name) := by
  rw [override, get?_insertAll, lastValue_entries]

end Bindings
end Stencil
