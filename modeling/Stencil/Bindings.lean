import Stencil.Table

/-!
# Bindings

The values that a run fills in: each name has at most one value, and the last one given to it counts. Two sets of
bindings are equal exactly when they give every name the same value.
-/

namespace Stencil

/-- Values by name. -/
structure Bindings where
  table : Table String String
  deriving DecidableEq

namespace Bindings

/-- No name has a value. -/
def empty : Bindings := ⟨.empty⟩

/-- The value of a name. -/
def get? (b : Bindings) (name : String) : Option String := b.table.get? name

/-- Gives a name a value, in place of the one it may have had. -/
def insert (b : Bindings) (name value : String) : Bindings := ⟨b.table.insert name value⟩

/-- `insert`, together with the value that the name had before. -/
def exchange (b : Bindings) (name value : String) : Option String × Bindings := (b.get? name, b.insert name value)

/-- The number of names that have a value. -/
def size (b : Bindings) : Nat := b.table.size

/-- No name has a value. -/
def isEmpty (b : Bindings) : Bool := b.table.entries.isEmpty

/-- The pairs inserted one after another: of two values for a name the later counts. -/
def ofList (pairs : List (String × String)) : Bindings := pairs.foldl (fun b p => b.insert p.1 p.2) empty

/-- The name under which the provider of a plugin is bound. -/
def providerName : String := "plugin_provider"

/-- The name under which the name of a plugin is bound. -/
def pluginName : String := "plugin_name"

/-- What the bundled plugin kit needs: who provides the plugin and what it is called. -/
def plugin (provider name : String) : Bindings := (empty.insert providerName provider).insert pluginName name

@[simp] theorem get?_empty (n : String) : empty.get? n = none := rfl

@[simp] theorem get?_insert (b : Bindings) (n n' v : String) :
    (b.insert n v).get? n' = if n' = n then some v else b.get? n' := Table.get?_insert _ _ _ _

/-- Bindings that agree on every name are equal. -/
theorem ext_get? {b c : Bindings} (h : ∀ n, b.get? n = c.get? n) : b = c := by
  obtain ⟨t⟩ := b
  obtain ⟨u⟩ := c
  exact congrArg Bindings.mk (Table.ext_get? h)

end Bindings
end Stencil
