import ShaderComposer.Shading.CompositionError

/-!
# Merging declarations by name

A program has one declaration per name.  It starts from defaults; the first
declaration added under a default's name takes the default's place, a new name
goes to the end, and any further declaration of a name must be the one that is
there already.
-/

namespace ShaderComposer

namespace Merge

variable {α : Type} [DecidableEq α] (name : α → String)

/-- The declarations so far, and the defaults' names that are taken over. -/
structure Progress (α : Type) where
  items : List α
  replaced : List String

/-- `items` with `item` in the place of what has its name. -/
def replace (item : α) (items : List α) : List α :=
  items.map fun other => if name other = name item then item else other

/-- One more declaration; fails with its name when it differs from the one in
force. -/
def add (defaults : List α) (progress : Progress α) (item : α) :
    Except String (Progress α) :=
  match progress.items.find? fun other => name other = name item with
  | none => .ok { progress with items := progress.items ++ [item] }
  | some present =>
    if (defaults.map name).contains (name item) && !progress.replaced.contains (name item) then
      .ok ⟨replace name item progress.items, name item :: progress.replaced⟩
    else if present = item then .ok progress
    else .error (name item)

def merge (defaults extra : List α) : Except String (List α) :=
  (extra.foldlM (add name defaults) ⟨defaults, []⟩).map Progress.items

/-- The merge, a clash being reported as one of the given kind. -/
def declarations (kind : DeclarationKind) (defaults extra : List α) :
    Except CompositionError (List α) :=
  (merge name defaults extra).mapError (CompositionError.nameCollision kind)

@[simp] theorem merge_nil (defaults : List α) : merge name defaults [] = .ok defaults := rfl

end Merge

end ShaderComposer
