import Glossary.Lexicon.Substitute
import Glossary.Proofs.Lexicon.Reachable

/-!
# Reading with and without a layer

What a name of an object stands for can be asked in two ways.  `find` gives the object a layer, for
which it may prune the tree and graft a whole stretch of layers, and resolves the name from there.
`substitute` resolves it from the nearest layer that the chain of the object leads to, and changes
nothing.

Both come to the same.  New layers are empty, so that a key falls through them to the layer they
were put on, and that layer is the nearest one.  Only pruning can come in between: it must not
remove the nearest layer, as it does if the lease of the owner has ended and nothing falls back to
the layer.  What the nearest layer falls back to stays with it.
-/

namespace Glossary

namespace LayerTree

variable {root : ObjectId} {t t' : LayerTree} {ended : Lease → Bool} {c : Chain} {x : Link}
  {i parent : LayerId} {pending links xs : List Link}

/-! ## After pruning -/

/-- A walk along a chain goes the same way as before if the layer that it leads to stays. -/
lemma Thinned.survey_eq (hthin : Thinned ended t t') (h : t.WellFormed root)
    (h' : t'.WellFormed root) {m : Layer}
    (hm : t'.layer? (t.survey pending links).anchor = some m) :
    t'.survey pending links = t.survey pending links := by
  induction links generalizing pending with
  | nil => rfl
  | cons x rest ih =>
    cases hx : t.layerOf? x.id with
    | some i =>
      rw [survey_of_owned hx] at hm ⊢
      exact survey_of_owned (hthin.layerOf?_of_eq_some h h' hx hm) pending rest
    | none =>
      have hx' := hthin.layerOf?_of_eq_none h h' hx
      by_cases hseen : ∃ y ∈ pending, y.id = x.id
      · rw [survey_of_repeated hx hseen, survey_of_repeated hx' hseen]
      · have hnew : ∀ y ∈ pending, y.id ≠ x.id := fun y hy hid => hseen ⟨y, hy, hid⟩
        rw [survey_of_new hx hnew] at hm ⊢
        rw [survey_of_new hx' hnew]
        exact ih hm

/-! ## After growing -/

/-- From a new layer a key is resolved as it was from the layer below. -/
lemma WellFormed.resolve?_graft (h : t.WellFormed root) {p : Layer} (hp : t.layer? parent = some p)
    (hx : t.layerOf? x.id = none) (k : Key) :
    (t.graft x parent).resolve? t.nextId k = t.resolve? parent k := by
  have hgraft := h.graft hp hx
  have hbelow := hgraft.resolve?_of_get?_eq_none (layer?_graft_self t x parent)
    (Entries.get?_empty k)
  rw [hbelow, Option.bind_some]
  exact h.resolve?_eq_of_stays hgraft (fun j l hl => h.layer?_graft_of_layer? hl x parent) k _ p hp

/-- From the topmost of several new layers a key is resolved as it was from the layer that they
were put on. -/
lemma WellFormed.resolve?_graftAll (h : t.WellFormed root) {p : Layer}
    (hp : t.layer? parent = some p) (hxs : t.Bare xs) (k : Key) :
    (t.graftAll parent xs).state.resolve? (t.graftAll parent xs).result k =
      t.resolve? parent k := by
  induction xs generalizing t parent p with
  | nil => rfl
  | cons x rest ih =>
    calc
      _ = (t.graft x parent).resolve? t.nextId k :=
        ih (h.graft hp hxs.head) (layer?_graft_self t x parent) (hxs.graft parent)
      _ = t.resolve? parent k := h.resolve?_graft hp hxs.head k

/-- From the layer that an object is given a key is resolved as it was from the nearest layer. -/
lemma WellFormed.resolve?_grow (h : t.WellFormed root) (c : Chain) (k : Key) :
    (t.grow c).state.resolve? (t.grow c).result k = t.resolve? (t.nearest c) k := by
  obtain ⟨p, hp⟩ := h.anchor_exists c.links
  rw [nearest_eq_anchor]
  exact h.resolve?_graftAll hp (surveyed t.bare_nil c.links).bare k

/-- The nearest layer to an object with a layer is its own. -/
lemma nearest_of_layerOf? (h : t.layerOf? c.self.id = some i) : t.nearest c = i := by
  rw [nearest_eq_anchor, Chain.links, survey_of_owned h]

/-! ## Pruning and growing -/

/-- The layer stays, be it that pruning is not due, or that it does not remove the layer. -/
def Spares (t : LayerTree) (ended : Lease → Bool) (i : LayerId) : Prop :=
  t.pruneDue = false ∨ ∃ l, (t.prune ended).layer? i = some l

/-- A layer that is there and is spared is there when the tree was tidied. -/
lemma Spares.layer?_tidy (hspares : t.Spares ended i) {l : Layer} (hl : t.layer? i = some l) :
    ∃ m, (t.tidy ended).layer? i = some m := by
  rw [tidy]
  split
  · next hdue =>
    rcases hspares with hnot | hstays
    · rw [hdue] at hnot
      cases hnot
    · exact hstays
  · exact ⟨l, hl⟩

/-- From the layer that an object is given a key is resolved as it was from the nearest layer, if
that is spared. -/
lemma WellFormed.resolve?_ensure (h : t.WellFormed root)
    (hspares : t.Spares ended (t.nearest c)) (k : Key) :
    (t.ensure ended c).state.resolve? (t.ensure ended c).result k = t.resolve? (t.nearest c) k := by
  have htidy := h.tidy ended
  have hthin := h.thinned_tidy ended
  obtain ⟨l, hl⟩ := h.anchor_exists c.links
  rw [← nearest_eq_anchor] at hl
  obtain ⟨m, hm⟩ := hspares.layer?_tidy hl
  have hnearest : (t.tidy ended).nearest c = t.nearest c := by
    rw [nearest_eq_anchor] at hm
    rw [nearest_eq_anchor, nearest_eq_anchor, hthin.survey_eq h htidy hm]
  calc
    _ = (t.tidy ended).resolve? ((t.tidy ended).nearest c) k := htidy.resolve?_grow c k
    _ = (t.tidy ended).resolve? (t.nearest c) k := by rw [hnearest]
    _ = t.resolve? (t.nearest c) k := hthin.resolve?_eq h htidy hm k

end LayerTree

namespace Lexicon

variable {root : ObjectId} {x : Lexicon} {ended : Lease → Bool} {c : Chain}

/-- What is used in place of a name: the value that was found, unless there is none or it is
empty. -/
lemma substitute_carrier (x : Lexicon) (d : Direction) (c : Chain) (language name : String) :
    (x.substitute d (.carrier c) language name).1 =
      (((x.tree.resolve? (x.tree.nearest c) ⟨d, x.canonical language, name⟩).map (·.value)).filter
        (· ≠ "")).getD name := by
  rw [substitute]
  cases x.tree.resolve? (x.tree.nearest c) ⟨d, x.canonical language, name⟩ with
  | none => rfl
  | some s => by_cases hs : s.value = "" <;> simp [hs, Option.filter]

/-- After a name was looked up for an object, names are substituted on it as before. -/
lemma substitute_find (h : x.tree.WellFormed root)
    (hspares : x.tree.Spares ended (x.tree.nearest c)) (d e : Direction)
    (language name language' name' : String) :
    ((x.find ended d c language name).state.substitute e (.carrier c) language' name').1 =
      (x.substitute e (.carrier c) language' name').1 := by
  have hstate : (x.find ended d c language name).state =
      { x with tree := (x.tree.ensure ended c).state } := rfl
  have hnearest := LayerTree.nearest_of_layerOf? (LayerTree.layerOf?_ensure x.tree ended c)
  rw [substitute_carrier, substitute_carrier, hstate]
  simp only [hnearest, canonical, h.resolve?_ensure hspares]

/-- **Substituting a name agrees with looking it up.**  Unless pruning is due and removes the layer
that is nearest to an object, a name is replaced by what `find` finds for it, and stays as it is if
that is nothing or empty.  After `find`, every name is replaced as before, in both directions. -/
theorem Reachable.substitute_agrees_with_find (h : Reachable root x) (ended : Lease → Bool)
    (c : Chain) (hspared : x.tree.pruneDue = false ∨
      ∃ l, (x.tree.prune ended).layer? (x.tree.nearest c) = some l)
    (d : Direction) (language name : String) :
    let o := x.find ended d c language name
    (∀ value, o.result = some value → value ≠ "" →
      (x.substitute d (.carrier c) language name).1 = value) ∧
    ((∀ value, o.result = some value → value = "") →
      (x.substitute d (.carrier c) language name).1 = name) ∧
    ∀ e language' name', (o.state.substitute e (.carrier c) language' name').1 =
      (x.substitute e (.carrier c) language' name').1 := by
  intro o
  have hwf := h.tree.wellFormed
  have hresult : o.result =
      (x.tree.resolve? (x.tree.nearest c) ⟨d, x.canonical language, name⟩).map (·.value) :=
    congrArg (Option.map _) (hwf.resolve?_ensure hspared _)
  refine ⟨fun value hvalue hne => ?_, fun hempty => ?_, fun e language' name' => ?_⟩
  · rw [substitute_carrier, ← hresult, hvalue, Option.filter_some_pos (by simpa using hne)]
    rfl
  · rw [substitute_carrier, ← hresult]
    cases hvalue : o.result with
    | none => rfl
    | some value =>
      rw [Option.filter_some_neg (by simpa using hempty value hvalue)]
      rfl
  · exact substitute_find hwf hspared d e language name language' name'

/-- A lexicon with so many layers that pruning is due, each of them on top of the one before.  The
object of the second has a pair. -/
def towering : Lexicon :=
  let link (n : Nat) : Link := ⟨.minted n, some n⟩
  let chain (n : Nat) : Chain := ⟨link n, (List.range n).reverse.map link⟩
  let x := (start (.minted 0) .empty).state.add (fun _ => false) (chain 1) "de" "los" "go"
  (x.state.ensure (fun _ => false) (chain 63)).state

/-- An object without a layer that delegates to the object with the pair. -/
def newcomer : Chain := ⟨⟨.minted 64, some 64⟩, [⟨.minted 1, some 1⟩, ⟨.minted 0, some 0⟩]⟩

-- the lease of the second object has ended, but the topmost layer falls back to all others
theorem Reachable.substitute_agrees_with_find_towering :
    Reachable (.minted 0) towering ∧ towering.tree.pruneDue = true ∧
    (∃ l, (towering.tree.prune (· < 63)).layer? (towering.tree.nearest newcomer) = some l) ∧
    (towering.find (· < 63) .forward newcomer "de" "los").result = some "go" ∧
    (towering.substitute .forward (.carrier newcomer) "de" "los").1 = "go" := by
  have h : Reachable (.minted 0) towering := ((Reachable.start .empty).add _ _ _ _ _).ensure _ _
  have hstays : ∃ l, (towering.tree.prune (· < 63)).layer? (towering.tree.nearest newcomer) =
      some l := Option.isSome_iff_exists.1 (by decide +kernel)
  have hfound : (towering.find (· < 63) .forward newcomer "de" "los").result = some "go" := by
    decide +kernel
  refine ⟨h, by decide +kernel, hstays, hfound, ?_⟩
  exact (Reachable.substitute_agrees_with_find h (· < 63) newcomer (Or.inr hstays) .forward "de"
    "los").1 "go" hfound (by decide)

-- when the topmost lease has ended too, the nearest layer is removed and its pair with it
example : (towering.substitute .forward (.carrier newcomer) "de" "los").1 = "go" ∧
    (towering.find (· < 64) .forward newcomer "de" "los").result = none := by
  decide +kernel

end Lexicon

end Glossary
