import Glossary.Event
import Glossary.Layer.Entries

/-!
# The tree of layers

Every object that takes part owns one layer, and every layer but the root falls back to a
parent layer.  Layers are numbered in the order of creation and a parent is always older than
its children, so the list of layers, newest first, can be run through once to follow a layer up
to the root: that is `lineage`.  A key is resolved in the first layer of the lineage that has
it.

The tree is the arena of stores, `StoreArena`.  A layer is a store (`LayeredStore`) and its heirs
are those that have it as their parent (`children`).  `layerOf?` is `store_of`, `own?` is
`own_entry`, `resolve?` is `resolve`, and `setEntries` stands for writing with `insert` and
`remove`.  The number of the next layer only grows, and is a natural number here.
-/

namespace Glossary

/-- The entries that one object owns, and where they fall back to. -/
structure Layer where
  /-- The number of the layer. -/
  id : LayerId
  /-- The object that owns the layer. -/
  owner : ObjectId
  /-- The layer it falls back to; the root has none. -/
  parent : Option LayerId
  /-- The lease of the owner.  An owner without a lease is there for good. -/
  lease : Option Lease
  /-- How many layers fall back to this one directly. -/
  heirs : Nat
  /-- The entries of the layer itself. -/
  entries : Entries
deriving DecidableEq

/-- The layers of all objects. -/
structure LayerTree where
  /-- The layers, newest first. -/
  layers : List Layer
  /-- Which layer an object owns. -/
  owners : List (ObjectId × LayerId)
  /-- The number of the next layer. -/
  nextId : LayerId
  /-- The number of layers at which ended ones are removed. -/
  pruneAt : Nat
deriving DecidableEq

namespace LayerTree

/-- The least number of layers at which ended ones are removed. -/
def leastPruneAt : Nat := 64

/-- The tree in which only the root object has a layer. -/
def start (root : ObjectId) : LayerTree where
  layers := [⟨.root, root, none, none, 0, .empty⟩]
  owners := [(root, .root)]
  nextId := 1
  pruneAt := leastPruneAt

/-- The number of layers. -/
def count (t : LayerTree) : Nat := t.layers.length

/-- The layer with a number. -/
def layer? (t : LayerTree) (i : LayerId) : Option Layer := t.layers.find? (·.id = i)

/-- The layer that an object owns. -/
def layerOf? (t : LayerTree) (o : ObjectId) : Option LayerId := t.owners.lookup o

/-- The entries of the layer with a number; none if there is no such layer. -/
def entriesOf (t : LayerTree) (i : LayerId) : Entries :=
  match t.layer? i with
  | some l => l.entries
  | none => .empty

/-- What the layer with a number says itself about a key. -/
def own? (t : LayerTree) (i : LayerId) (k : Key) : Option String := (t.entriesOf i).get? k

/-- Changes the entries of the layer with a number. -/
def setEntries (t : LayerTree) (i : LayerId) (e : Entries) : LayerTree :=
  { t with layers := t.layers.map fun l => if l.id = i then { l with entries := e } else l }

@[simp] theorem count_setEntries (t : LayerTree) (i : LayerId) (e : Entries) :
    (t.setEntries i e).count = t.count := by
  simp [count, setEntries]

@[simp] theorem layerOf?_setEntries (t : LayerTree) (i : LayerId) (e : Entries)
    (o : ObjectId) : (t.setEntries i e).layerOf? o = t.layerOf? o := rfl

/-- A layer whose entries are set keeps everything else. -/
theorem layer?_setEntries (t : LayerTree) (i : LayerId) (e : Entries) (j : LayerId) :
    (t.setEntries i e).layer? j =
      (t.layer? j).map fun l => if j = i then { l with entries := e } else l := by
  obtain ⟨layers, owners, nextId, pruneAt⟩ := t
  simp only [layer?, setEntries]
  induction layers with
  | nil => rfl
  | cons l rest ih =>
    by_cases hj : l.id = j
    · by_cases hi : l.id = i
      · have hji : j = i := hj.symm.trans hi
        simp [hi, hji]
      · have hji : ¬ j = i := fun h => hi (hj.trans h)
        simp [hj, hji]
    · have hne : (if l.id = i then { l with entries := e } else l).id ≠ j := by
        split <;> simpa using hj
      rw [List.map_cons, List.find?_cons_of_neg (by simpa using hne),
        List.find?_cons_of_neg (by simpa using hj)]
      exact ih

/-- The layer with a number and those it falls back to, nearest first, among layers that are
listed newest first. -/
def lineageIn : List Layer → Option LayerId → List Layer
  | _, none => []
  | [], some _ => []
  | l :: older, some i =>
    if l.id = i then l :: lineageIn older l.parent else lineageIn older (some i)

/-- The layer with a number and those it falls back to, nearest first. -/
def lineage (t : LayerTree) (i : LayerId) : List Layer := lineageIn t.layers (some i)

/-- A value and the layer that supplied it. -/
structure Supply where
  /-- The layer that has the key. -/
  layer : LayerId
  /-- Its value. -/
  value : String
deriving DecidableEq

/-- The value of a key in the nearest layer that has it. -/
def resolve? (t : LayerTree) (i : LayerId) (k : Key) : Option Supply :=
  (t.lineage i).findSome? fun l => (l.entries.get? k).map (⟨l.id, ·⟩)

/-- What is reported when a key was resolved. -/
def resolveEvents (i : LayerId) (k : Key) (s : Option Supply) : List Event :=
  (s.map fun s => Event.resolved k i s.layer).toList

end LayerTree

end Glossary
