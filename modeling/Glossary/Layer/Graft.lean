import Glossary.Layer.Prune

/-!
# Giving an object its layer

An object delegates to another one, that one to a third, and so on: its delegation chain.  The
layer of an object falls back to the layer of what it delegates to.  `grow` gives an object a
layer and, before that, all objects of its chain up to the first that has one, starting at the
far end; `ensure` also prunes first, if that is due; `nearest` only looks for the layer where the
new ones would begin.  A chain that comes back to an identity it has passed, and a chain that
ends without a layer, begin at the root.

To graft a layer is to attach a store: `graft` is `attach`, `ensure` is `ensure_store`, and
`nearest` is `nearest_store`.  The next object of a chain is the `delegation_parent` of the one
before it.
-/

namespace Glossary

/-- An object on a delegation chain. -/
structure Link where
  /-- The identity of the object. -/
  id : ObjectId
  /-- Its lease, if it has one. -/
  lease : Option Lease
deriving DecidableEq

/-- An object and what it delegates to, directly and indirectly. -/
structure Chain where
  /-- The object itself. -/
  self : Link
  /-- What it delegates to, nearest first. -/
  above : List Link
deriving DecidableEq

/-- All objects of a chain, the object itself first. -/
def Chain.links (c : Chain) : List Link := c.self :: c.above

namespace LayerTree

/-- Where new layers are to be put. -/
structure Site where
  /-- The objects without a layer, the farthest first. -/
  pending : List Link
  /-- The layer on which the first of them goes. -/
  anchor : LayerId
  /-- The identity at which the chain came back to itself. -/
  repeated : Option ObjectId

/-- Follows a chain to the first object that has a layer.  The objects already passed are
`pending`, the last of them first. -/
def survey (t : LayerTree) (pending : List Link) : List Link → Site
  | [] => ⟨pending, .root, none⟩
  | x :: above =>
    match t.layerOf? x.id with
    | some i => ⟨pending, i, none⟩
    | none =>
      if pending.any (·.id = x.id) then ⟨pending, .root, some x.id⟩
      else t.survey (x :: pending) above

/-- Puts an empty layer for an object on top of another layer. -/
def graft (t : LayerTree) (x : Link) (parent : LayerId) : LayerTree where
  layers := ⟨t.nextId, x.id, some parent, x.lease, 0, .empty⟩ ::
    t.layers.map fun l => if l.id = parent then { l with heirs := l.heirs + 1 } else l
  owners := (x.id, t.nextId) :: t.owners
  nextId := t.nextId + 1
  pruneAt := t.pruneAt

@[simp] theorem count_graft (t : LayerTree) (x : Link) (parent : LayerId) :
    (t.graft x parent).count = t.count + 1 := by
  simp [count, graft]

/-- The new layer belongs to its object, and no other object's layer changes. -/
@[simp] theorem layerOf?_graft (t : LayerTree) (x : Link) (parent : LayerId) (o : ObjectId) :
    (t.graft x parent).layerOf? o = if o = x.id then some t.nextId else t.layerOf? o := by
  simp only [layerOf?, graft, lookup_cons_eq_ite]

/-- Puts empty layers for objects on top of each other, and gives the topmost. -/
def graftAll (t : LayerTree) (parent : LayerId) : List Link → Outcome LayerTree LayerId
  | [] => ⟨t, parent, []⟩
  | x :: rest =>
    let o := (t.graft x parent).graftAll t.nextId rest
    { o with events := .grafted x.id t.nextId parent :: o.events }

/-- The layer of an object, which is made if there is none yet.  No layer is removed. -/
def grow (t : LayerTree) (c : Chain) : Outcome LayerTree LayerId :=
  let site := t.survey [] c.links
  let o := t.graftAll site.anchor site.pending
  { o with events := (site.repeated.map Event.cycle).toList ++ o.events }

/-- The layer of an object, which is made if there is none yet.  Before that, layers are removed
if that is due. -/
def ensure (t : LayerTree) (ended : Lease → Bool) (c : Chain) : Outcome LayerTree LayerId :=
  let o := (t.tidy ended).grow c
  { o with events := t.tidyEvents ended ++ o.events }

/-- The nearest layer along a chain, when the identities in `seen` were already passed. -/
def nearestFrom (t : LayerTree) (seen : List ObjectId) : List Link → LayerId
  | [] => .root
  | x :: above =>
    match t.layerOf? x.id with
    | some i => i
    | none => if x.id ∈ seen then .root else t.nearestFrom (x.id :: seen) above

/-- The nearest layer along the chain of an object. -/
def nearest (t : LayerTree) (c : Chain) : LayerId := t.nearestFrom [] c.links

end LayerTree

end Glossary
