import Glossary.Proofs.Layer.Graft

/-!
# Layers on top of each other

When an object is given a layer, the objects of its chain that have none are given theirs first,
beginning at the far end.  What is built that way is a `Stack`: the farthest object has the layer
with the first new number, which lies on a layer that was there before, and every other layer lies
on that of the next object.  `Grown` adds that nothing else changes.

`Grown.graft` is the step from one stack to the next higher one, and `WellFormed.grown` the whole
run.  The last section says what is left of a tree when an object is given a layer: the layers that
were there before, but for those that were removed, with their entries, and new ones without any.
-/

namespace Glossary

namespace LayerTree

variable {root : ObjectId} {t u : LayerTree} {ended : Lease → Bool} {c : Chain} {x : Link}
  {first anchor top i : LayerId} {xs : List Link} {l m : Layer}

/-! ## Stacks -/

/-- New layers on top of each other, for objects that are listed from the nearest to the farthest.
The layer of the farthest object has the number `first` and lies on `anchor`.  Each other one has the
next number and lies on the layer of the object that comes next.  All are empty. -/
inductive Stack (first anchor : LayerId) (u : LayerTree) : List Link → LayerId → Prop
  /-- A stack without new layers has the anchor on top. -/
  | bottom : Stack first anchor u [] anchor
  /-- The layer of the nearest object lies on top of those of the others. -/
  | layer {x : Link} {rest : List Link} {below : LayerId} {heirs : Nat}
    (h : Stack first anchor u rest below)
    (howner : u.layerOf? x.id = some (first + rest.length))
    (hlayer : u.layer? (first + rest.length) =
      some ⟨first + rest.length, x.id, some below, x.lease, heirs, .empty⟩) :
    Stack first anchor u (x :: rest) (first + rest.length)

/-- A graft for another object leaves a stack as it is. -/
lemma Stack.graft (h : Stack first anchor u xs top) (hwf : u.WellFormed root)
    (hx : ∀ y ∈ xs, y.id ≠ x.id) (parent : LayerId) :
    Stack first anchor (u.graft x parent) xs top := by
  induction h with
  | bottom => exact .bottom
  | layer _ howner hlayer ih =>
    obtain ⟨hne, hrest⟩ := List.forall_mem_cons.1 hx
    obtain ⟨n, hn⟩ := hwf.layer?_graft_of_layer? hlayer x parent
    refine .layer (ih hrest) ?_ hn
    rw [layerOf?_graft, if_neg hne, howner]

/-- A tree has grown by a stack of new layers, and nothing else has changed. -/
structure Grown (t : LayerTree) (anchor : LayerId) (xs : List Link) (u : LayerTree)
    (top : LayerId) : Prop where
  /-- The objects have new layers, which are numbered from the next number on. -/
  stack : Stack t.nextId anchor u xs top
  /-- So many numbers were used. -/
  nextId : u.nextId = t.nextId + xs.length
  /-- There are so many layers more. -/
  count : u.count = t.count + xs.length
  /-- A layer that was there before is unchanged but for its count. -/
  stays : ∀ i l, t.layer? i = some l → ∃ n, u.layer? i = some { l with heirs := n }
  /-- A layer was there before, or it is one of the new ones and has no entries. -/
  only : ∀ i m, u.layer? i = some m → (∃ l n, t.layer? i = some l ∧ m = { l with heirs := n }) ∨
    t.nextId ≤ i ∧ i < t.nextId + xs.length ∧ m.entries = .empty
  /-- Other objects have the layers that they had. -/
  others : ∀ o, (∀ y ∈ xs, y.id ≠ o) → u.layerOf? o = t.layerOf? o

lemma Grown.refl (t : LayerTree) (anchor : LayerId) : Grown t anchor [] t anchor where
  stack := .bottom
  nextId := rfl
  count := rfl
  stays := fun _ l hl => ⟨l.heirs, hl⟩
  only := fun _ m hm => Or.inl ⟨m, m.heirs, hm, rfl⟩
  others := fun _ _ => rfl

/-- One more layer is put on top. -/
lemma Grown.graft (h : Grown t anchor xs u top) (hwf : u.WellFormed root)
    (hx : ∀ y ∈ xs, y.id ≠ x.id) : Grown t anchor (x :: xs) (u.graft x top) u.nextId where
  stack := by
    have howner : (u.graft x top).layerOf? x.id = some u.nextId := by
      rw [layerOf?_graft, if_pos rfl]
    have hlayer := layer?_graft_self u x top
    rw [h.nextId] at howner hlayer ⊢
    exact .layer (h.stack.graft hwf hx top) howner hlayer
  nextId := congrArg (· + 1) h.nextId
  count := by
    rw [count_graft, h.count]
    rfl
  stays := by
    intro i l hl
    obtain ⟨n, hn⟩ := h.stays i l hl
    exact hwf.layer?_graft_of_layer? hn x top
  only := by
    intro i m hm
    rcases layer?_of_layer?_graft hm with ⟨rfl, rfl⟩ | ⟨l, n, hl, rfl⟩
    · refine Or.inr ⟨?_, ?_, rfl⟩
      · exact h.nextId ▸ Nat.le_add_right _ _
      · exact h.nextId ▸ Nat.lt_succ_self _
    · rcases h.only i l hl with ⟨q, n', hq, rfl⟩ | ⟨hle, hlt, hempty⟩
      · exact Or.inl ⟨q, n, hq, rfl⟩
      · exact Or.inr ⟨hle, Nat.lt_succ_of_lt hlt, hempty⟩
  others := by
    intro o ho
    obtain ⟨hne, hrest⟩ := List.forall_mem_cons.1 ho
    rw [layerOf?_graft, if_neg hne.symm, h.others o hrest]

lemma Bare.tail (h : t.Bare (x :: xs)) : t.Bare xs where
  layerless := fun y hy => h.layerless y (List.mem_cons_of_mem _ hy)
  distinct := (List.pairwise_cons.1 h.distinct).2

lemma Bare.reverse (h : t.Bare xs) : t.Bare xs.reverse where
  layerless := fun y hy => h.layerless y (List.mem_reverse.1 hy)
  distinct := List.pairwise_reverse.2 (h.distinct.imp Ne.symm)

/-- A run of grafts, beginning at the farthest object, builds a stack. -/
lemma WellFormed.grown (h : t.WellFormed root) {p : Layer} (hp : t.layer? anchor = some p)
    (hxs : t.Bare xs) :
    Grown t anchor xs (t.graftAll anchor xs.reverse).state
      (t.graftAll anchor xs.reverse).result := by
  induction xs with
  | nil => exact .refl t anchor
  | cons x rest ih =>
    have hwf := h.graftAll hp hxs.tail.reverse
    have hne : ∀ y ∈ rest, y.id ≠ x.id := fun y hy =>
      Ne.symm ((List.pairwise_cons.1 hxs.distinct).1 y hy)
    obtain ⟨hstate, hresult⟩ := graftAll_concat t anchor rest.reverse x
    rw [List.reverse_cons, hstate, hresult]
    exact (ih hxs.tail).graft hwf hne

/-! ## When an object is given a layer -/

/-- The tree grows along the objects that a walk found without a layer. -/
lemma WellFormed.grown_ensure (h : t.WellFormed root) (ended : Lease → Bool) (c : Chain) :
    let site := (t.tidy ended).survey [] c.links
    Grown (t.tidy ended) site.anchor site.pending.reverse (t.ensure ended c).state
      (t.ensure ended c).result := by
  intro site
  have htidy := h.tidy ended
  obtain ⟨p, hp⟩ := htidy.anchor_exists c.links
  have hgrown := htidy.grown hp (surveyed (bare_nil _) c.links).bare.reverse
  rwa [List.reverse_reverse] at hgrown

/-- A layer that is left has the entries that it had, and none if it is new. -/
lemma WellFormed.entries_ensure (h : t.WellFormed root)
    (hm : (t.ensure ended c).state.layer? i = some m) : m.entries = t.entriesOf i := by
  have hthin := h.thinned_tidy ended
  rcases (h.grown_ensure ended c).only i m hm with ⟨q, n, hq, rfl⟩ | ⟨hle, -, hempty⟩
  · obtain ⟨l, n', hl, rfl⟩ := hthin.stays i q hq
    rw [entriesOf_of_layer? hl]
  · have hnone : t.layer? i = none := by
      refine layer?_eq_none_iff.2 fun l hl => ?_
      rw [hthin.nextId] at hle
      exact Nat.ne_of_lt (Nat.lt_of_lt_of_le (h.fresh l hl) hle)
    rw [hempty, entriesOf, hnone]

end LayerTree

end Glossary
