import Std.Data.ExtTreeMap

/-!
# Names and what they are bound to

A set of bindings gives each of finitely many names one value. Two sets that bind the same names
to the same values are equal, and the names are listed in the order of their characters.
-/

namespace Logo

/-- What each of some names is bound to. -/
abbrev Bindings (α : Type) := Std.ExtTreeMap String α

/-- Binds `name` to `value`; also gives what it was bound to before. -/
def Bindings.replace {α : Type} (b : Bindings α) (name : String) (value : α) :
    Option α × Bindings α :=
  (b[name]?, b.insert name value)

/-- Undoes what was done since the bindings were `before`: names that were not bound then are
dropped, and the others are bound again to what they were bound to. -/
def Bindings.restore {α : Type} (b before : Bindings α) : Bindings α :=
  (b.filter fun name _ => before.contains name) ∪ before

end Logo
