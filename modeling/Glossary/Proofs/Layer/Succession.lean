import Glossary.Proofs.Layer.Graft

/-!
# One tree after another

Whatever is done with a tree of layers, it changes in single steps: layers are removed, an empty
layer is put on top of another one, or the entries of a layer are replaced.  `Happens` lists the
steps, and says of each what it needs.  Two things follow from it about one step: `Happens.later`
says how the trees before and after are related, and `Happens.lost` when a layer can get lost.

A `Moment` is a tree together with the leases that have ended when it came about.  `Passes` is a row
of moments, each of which came about by a single step from the one before.
-/

namespace Glossary

namespace LayerTree

variable {root : ObjectId} {t u v : LayerTree} {ended : Lease → Bool} {c : Chain} {i : LayerId}
  {l m : Layer}

/-! ## Before and after -/

/-- A tree comes after another one: numbers that were given before are not given again, and a layer
that is still there belongs to the same object, falls back to the same layer and has the same
lease. -/
structure Later (t u : LayerTree) : Prop where
  /-- Numbers are given in increasing order. -/
  nextId : t.nextId ≤ u.nextId
  /-- A layer with a number that had been given was there before. -/
  stays : ∀ i m, i < t.nextId → u.layer? i = some m →
    ∃ l, t.layer? i = some l ∧ m.owner = l.owner ∧ m.parent = l.parent ∧ m.lease = l.lease

namespace Later

lemma refl (t : LayerTree) : t.Later t where
  nextId := Nat.le_refl _
  stays := fun _ m _ hm => ⟨m, hm, rfl, rfl, rfl⟩

lemma trans (h : t.Later u) (h' : u.Later v) : t.Later v where
  nextId := Nat.le_trans h.nextId h'.nextId
  stays := by
    intro i m hi hm
    obtain ⟨k, hk, hko, hkp, hkl⟩ := h'.stays i m (Nat.lt_of_lt_of_le hi h.nextId) hm
    obtain ⟨l, hl, hlo, hlp, hll⟩ := h.stays i k hi hk
    exact ⟨l, hl, hko.trans hlo, hkp.trans hlp, hkl.trans hll⟩

/-- A number without a layer that had been given before stays without one. -/
lemma layer?_eq_none (h : t.Later u) (hi : i < t.nextId) (hn : t.layer? i = none) :
    u.layer? i = none := by
  cases hm : u.layer? i with
  | none => rfl
  | some m =>
    obtain ⟨l, hl, -⟩ := h.stays i m hi hm
    rw [hn] at hl
    cases hl

/-- A layer that was not there before has a number that had not been given. -/
lemma nextId_le (h : t.Later u) (hm : u.layer? i = some m) (hn : t.layer? i = none) :
    t.nextId ≤ i := by
  refine Nat.le_of_not_lt fun hi => ?_
  rw [h.layer?_eq_none hi hn] at hm
  cases hm

end Later

lemma Thinned.later (h : Thinned ended t u) : t.Later u where
  nextId := Nat.le_of_eq h.nextId.symm
  stays := by
    intro i m _ hm
    obtain ⟨l, n, hl, rfl⟩ := h.stays i m hm
    exact ⟨l, hl, rfl, rfl, rfl⟩

lemma later_graft (t : LayerTree) (x : Link) (parent : LayerId) : t.Later (t.graft x parent) where
  nextId := Nat.le_succ _
  stays := by
    intro i m hi hm
    rcases layer?_of_layer?_graft hm with ⟨rfl, -⟩ | ⟨l, n, hl, rfl⟩
    · exact absurd hi (Nat.lt_irrefl _)
    · exact ⟨l, hl, rfl, rfl, rfl⟩

lemma later_graftAll (t : LayerTree) (parent : LayerId) (xs : List Link) :
    t.Later (t.graftAll parent xs).state := by
  induction xs generalizing t parent with
  | nil => exact .refl t
  | cons x rest ih => exact (later_graft t x parent).trans (ih (t.graft x parent) t.nextId)

lemma WellFormed.later_ensure (h : t.WellFormed root) (ended : Lease → Bool) (c : Chain) :
    t.Later (t.ensure ended c).state :=
  (h.thinned_tidy ended).later.trans (later_graftAll _ _ _)

lemma later_setEntries (t : LayerTree) (i : LayerId) (e : Entries) :
    t.Later (t.setEntries i e) where
  nextId := Nat.le_refl _
  stays := by
    intro j m _ hm
    rw [layer?_setEntries] at hm
    obtain ⟨l, hl, rfl⟩ := Option.map_eq_some_iff.1 hm
    refine ⟨l, hl, ?_⟩
    split <;> exact ⟨rfl, rfl, rfl⟩

/-! ## Single steps -/

/-- What can happen to a tree of layers in a single step. -/
inductive Happens (ended : Lease → Bool) (t : LayerTree) : LayerTree → Prop
  /-- Nothing changes. -/
  | nothing : Happens ended t t
  /-- Pruning is due, and layers are removed. -/
  | prune (h : t.pruneDue = true) : Happens ended t (t.prune ended)
  /-- An empty layer is put on a layer that is there, for an object without a layer. -/
  | graft {x : Link} {parent : LayerId} {p : Layer} (hp : t.layer? parent = some p)
    (hx : t.layerOf? x.id = none) : Happens ended t (t.graft x parent)
  /-- The entries of a layer are replaced. -/
  | write (i : LayerId) (e : Entries) : Happens ended t (t.setEntries i e)

namespace Happens

lemma wellFormed (h : Happens ended t u) (hwf : t.WellFormed root) : u.WellFormed root := by
  cases h with
  | nothing => exact hwf
  | prune _ => exact hwf.prune
  | graft hp hx => exact hwf.graft hp hx
  | write i e => exact hwf.setEntries i e

lemma later (h : Happens ended t u) (hwf : t.WellFormed root) : t.Later u := by
  cases h with
  | nothing => exact .refl t
  | prune _ => exact hwf.thinned_prune.later
  | graft _ _ => exact later_graft t _ _
  | write i e => exact later_setEntries t i e

/-- A layer gets lost only when layers are removed, the lease of its owner has ended, and no layer
that is left falls back to it. -/
lemma lost (h : Happens ended t u) (hwf : t.WellFormed root) (hl : t.layer? i = some l)
    (hn : u.layer? i = none) :
    t.pruneDue = true ∧ u = t.prune ended ∧ (∃ k, l.lease = some k ∧ ended k = true) ∧
      ∀ j m, u.layer? j = some m → m.parent ≠ some i := by
  cases h with
  | nothing =>
    rw [hl] at hn
    cases hn
  | prune hdue =>
    have hended := hwf.thinned_prune.gone i l hl hn
    refine ⟨hdue, rfl, (Option.any_eq_true _ _).1 hended, fun j m hm hp => ?_⟩
    -- what is left has its parent in what is left
    obtain ⟨-, q, hq⟩ := hwf.prune.parent_exists hm hp
    rw [hn] at hq
    cases hq
  | graft hp hx =>
    obtain ⟨n, hn'⟩ := hwf.layer?_graft_of_layer? hl _ _
    rw [hn] at hn'
    cases hn'
  | write j e =>
    rw [layer?_setEntries, hl] at hn
    cases hn

end Happens

/-! ## Rows of moments -/

/-- A tree of layers, and the leases that have ended when it came about. -/
structure Moment where
  /-- Which leases have ended. -/
  ended : Lease → Bool
  /-- The tree. -/
  tree : LayerTree

/-- A row of moments that leads from one tree to another, each by a single step from the one
before. -/
inductive Passes : LayerTree → List Moment → LayerTree → Prop
  /-- Nothing more happens. -/
  | done (t : LayerTree) : Passes t [] t
  /-- The first moment comes about from the first tree. -/
  | step {t u : LayerTree} {a : Moment} {ms : List Moment} (h : Happens a.ended t a.tree)
    (hrest : Passes a.tree ms u) : Passes t (a :: ms) u

/-- The moments while layers for objects are put on top of each other, one for each layer. -/
def graftMoments (ended : Lease → Bool) (t : LayerTree) (parent : LayerId) :
    List Link → List Moment
  | [] => []
  | x :: rest =>
    ⟨ended, t.graft x parent⟩ :: graftMoments ended (t.graft x parent) t.nextId rest

/-- The moments while an object is given a layer: one when pruning was looked after, and one for
each new layer. -/
def ensureMoments (ended : Lease → Bool) (t : LayerTree) (c : Chain) : List Moment :=
  let site := (t.tidy ended).survey [] c.links
  ⟨ended, t.tidy ended⟩ :: graftMoments ended (t.tidy ended) site.anchor site.pending

lemma WellFormed.passes_graftAll (h : t.WellFormed root) {parent : LayerId} {p : Layer}
    (hp : t.layer? parent = some p) {xs : List Link} (hxs : t.Bare xs) (ended : Lease → Bool) :
    Passes t (graftMoments ended t parent xs) (t.graftAll parent xs).state := by
  induction xs generalizing t parent p with
  | nil => exact .done t
  | cons x rest ih =>
    have hrest := ih (h.graft hp hxs.head) (layer?_graft_self t x parent) (hxs.graft parent)
    exact .step (.graft hp hxs.head) hrest

lemma happens_tidy (ended : Lease → Bool) (t : LayerTree) : Happens ended t (t.tidy ended) := by
  rw [tidy]
  split
  · next hdue => exact .prune hdue
  · exact .nothing

lemma WellFormed.passes_ensure (h : t.WellFormed root) (ended : Lease → Bool) (c : Chain) :
    Passes t (ensureMoments ended t c) (t.ensure ended c).state := by
  have htidy := h.tidy ended
  obtain ⟨p, hp⟩ := htidy.anchor_exists c.links
  have hgraft := htidy.passes_graftAll hp (surveyed (bare_nil _) c.links).bare ended
  exact .step (happens_tidy ended t) hgraft

namespace Passes

variable {ms ns : List Moment}

lemma append (h : Passes t ms u) (h' : Passes u ns v) : Passes t (ms ++ ns) v := by
  induction h with
  | done t => exact h'
  | step hstep _ ih => exact .step hstep (ih h')

/-- All trees of a row are well formed, the last included. -/
lemma wellFormed (h : Passes t ms u) (hwf : t.WellFormed root) :
    (∀ a ∈ ms, a.tree.WellFormed root) ∧ u.WellFormed root := by
  induction h with
  | done t => exact ⟨by simp, hwf⟩
  | step hstep _ ih =>
    have hfirst := hstep.wellFormed hwf
    obtain ⟨hall, hlast⟩ := ih hfirst
    exact ⟨List.forall_mem_cons.2 ⟨hfirst, hall⟩, hlast⟩

/-- Every moment comes after all those before it. -/
lemma later (h : Passes t ms u) (hwf : t.WellFormed root) :
    (∀ a ∈ ms, t.Later a.tree) ∧ ms.Pairwise fun a b => a.tree.Later b.tree := by
  induction h with
  | done t => simp
  | step hstep _ ih =>
    obtain ⟨hfirst, hpairs⟩ := ih (hstep.wellFormed hwf)
    have hlater := hstep.later hwf
    refine ⟨fun b hb => ?_, List.pairwise_cons.2 ⟨hfirst, hpairs⟩⟩
    rcases List.mem_cons.1 hb with rfl | hb
    · exact hlater
    · exact hlater.trans (hfirst b hb)

/-- Every moment comes about by a single step from the one before. -/
lemma happens (h : Passes t ms u) {a b c : Moment} (ha : a.tree = t) {q : Nat}
    (hb : (a :: ms)[q]? = some b) (hc : (a :: ms)[q + 1]? = some c) :
    Happens c.ended b.tree c.tree := by
  induction h generalizing a q with
  | done t => simp at hc
  | step hstep _ ih =>
    cases q with
    | zero =>
      obtain rfl := Option.some.inj hb
      obtain rfl := Option.some.inj hc
      exact ha ▸ hstep
    | succ q => exact ih rfl hb hc

/-- The tree that a row of moments leads to is that of its last moment. -/
lemma getElem?_length (h : Passes t ms u) {a : Moment} (ha : a.tree = t) (ns : List Moment) :
    (a :: (ms ++ ns))[ms.length]?.map (·.tree) = some u := by
  induction h generalizing a with
  | done t => exact congrArg some ha
  | step hstep _ ih => exact ih rfl

end Passes

end LayerTree

end Glossary
