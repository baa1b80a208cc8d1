import Glossary.Layer.Tree

/-!
# Listing a tree of layers

All entries of all layers in one fixed order, in which the stores of an arena can be shown whole.
-/

namespace Glossary

namespace LayerTree

/-- An entry and the layer that has it. -/
structure Row where
  /-- The layer. -/
  layer : LayerId
  /-- The key of the entry. -/
  key : Key
  /-- Its value. -/
  value : String
deriving DecidableEq

/-- Whether one row of a listing stands before another: by layer, then by key. -/
def Row.before (r s : Row) : Bool :=
  if r.layer = s.layer then r.key.before s.key else r.layer < s.layer

/-- All entries of all layers, in order of layer and key. -/
def listing (t : LayerTree) : List Row :=
  (t.layers.flatMap fun l => l.entries.rows.map fun r => ⟨l.id, r.1, r.2⟩).mergeSort
    fun r s => !s.before r

end LayerTree

end Glossary
