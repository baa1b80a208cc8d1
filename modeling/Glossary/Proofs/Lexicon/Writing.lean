import Glossary.Proofs.Layer.Stack
import Glossary.Proofs.Layer.Succession
import Glossary.Proofs.Layer.Survival
import Glossary.Proofs.Lexicon.Pairing

/-!
# What writing changes

A pair is written to the layer of one object.  On the way layers may be removed and others made, but
a layer that is left has the entries that it had, and a new one has none.  `Confined` says this of
two trees: the second comes after the first, and at most the entries of one layer are different.

What is resolved follows from the entries that are met on the way to the root, so in a confined change
it stays the same from every layer that does not rest on the changed one, for every key about which the
changed layer says what it said before, and for every key that is found before the way comes to the
changed layer.
-/

namespace Glossary

namespace LayerTree

variable {root : ObjectId} {t u : LayerTree} {ended : Lease → Bool} {c : Chain} {i s : LayerId}
  {l m : Layer} {k : Key}

/-! ## Confined changes -/

/-- The second tree comes after the first, and no entries are different but those of one layer. -/
structure Confined (s : LayerId) (t u : LayerTree) : Prop where
  /-- Layers keep their owners and parents, and no number is given twice. -/
  later : t.Later u
  /-- Every other layer has the entries that it had, and none if it is new. -/
  entries : ∀ i m, i ≠ s → u.layer? i = some m → m.entries = t.entriesOf i

/-- Giving an object a layer changes no entries. -/
lemma WellFormed.confined_ensure (h : t.WellFormed root) (ended : Lease → Bool) (c : Chain)
    (s : LayerId) : Confined s t (t.ensure ended c).state where
  later := h.later_ensure ended c
  entries := fun _ _ _ hm => h.entries_ensure hm

lemma Confined.setEntries (h : Confined s t u) (e : Entries) : Confined s t (u.setEntries s e) where
  later := h.later.trans (later_setEntries u s e)
  entries := by
    intro i m hi hm
    rw [layer?_setEntries] at hm
    obtain ⟨l, hl, rfl⟩ := Option.map_eq_some_iff.1 hm
    rw [if_neg hi]
    exact h.entries i l hi hl

lemma layer?_setEntries_self (hl : t.layer? s = some l) (e : Entries) :
    (t.setEntries s e).layer? s = some { l with entries := e } := by
  rw [layer?_setEntries, hl, Option.map_some, if_pos rfl]

lemma entriesOf_setEntries_self (hl : t.layer? s = some l) (e : Entries) :
    (t.setEntries s e).entriesOf s = e :=
  entriesOf_of_layer? (layer?_setEntries_self hl e)

lemma own?_of_layer? (hl : t.layer? i = some l) (k : Key) : t.own? i k = l.entries.get? k := by
  rw [own?, entriesOf_of_layer? hl]

namespace Confined

lemma own?_eq (h : Confined s t u) (hi : i ≠ s) (hm : u.layer? i = some m) (k : Key) :
    u.own? i k = t.own? i k := by
  rw [own?_of_layer? hm, own?, h.entries i m hi hm]

lemma parent_eq (h : Confined s t u) (ht : t.WellFormed root) (hl : t.layer? i = some l)
    (hm : u.layer? i = some m) : m.parent = l.parent := by
  obtain ⟨l', hl', -, hp, -⟩ := h.later.stays i m (ht.lt_nextId hl) hm
  obtain rfl := Option.some.inj (hl.symm.trans hl')
  exact hp

/-- If every layer on the way to the root says of a key what it said before, the key is resolved as
before. -/
lemma resolve?_eq (h : Confined s t u) (ht : t.WellFormed root) (hu : u.WellFormed root) :
    ∀ i m, u.layer? i = some m → (∃ l, t.layer? i = some l) →
      (∀ j, u.RestsOn i j → u.own? j k = t.own? j k) → u.resolve? i k = t.resolve? i k := by
  -- both trees lead from a layer to the same parent, so that the two ways stay together
  refine hu.walk fun i m hm ih => ?_
  rintro ⟨l, hl⟩ hown
  have hself : m.entries.get? k = l.entries.get? k := by
    rw [← own?_of_layer? hm, ← own?_of_layer? hl]
    exact hown i (.self hm)
  cases hv : l.entries.get? k with
  | some v => rw [hu.resolve?_of_get? hm (hself.trans hv), ht.resolve?_of_get? hl hv]
  | none =>
    rw [hu.resolve?_of_get?_eq_none hm (hself.trans hv), ht.resolve?_of_get?_eq_none hl hv,
      ← h.parent_eq ht hl hm]
    cases hp : m.parent with
    | none => rfl
    | some p =>
      have hold := (ht.parent_exists hl (h.parent_eq ht hl hm ▸ hp)).2
      exact ih p hp hold fun j hj => hown j (.parent hm hp hj)

/-- From a layer that does not rest on the changed one every key is resolved as before. -/
lemma resolve?_eq_of_not_restsOn (h : Confined s t u) (ht : t.WellFormed root)
    (hu : u.WellFormed root) (hl : t.layer? i = some l) (hm : u.layer? i = some m)
    (haside : ¬ u.RestsOn i s) (k : Key) : u.resolve? i k = t.resolve? i k := by
  refine h.resolve?_eq ht hu i m hm ⟨l, hl⟩ fun j hj => ?_
  obtain ⟨q, hq⟩ := hj.layer?_right
  refine h.own?_eq ?_ hq k
  rintro rfl
  exact haside hj

/-- A key of which the changed layer says what it said before is resolved as before. -/
lemma resolve?_eq_of_own?_eq (h : Confined s t u) (ht : t.WellFormed root)
    (hu : u.WellFormed root) (hk : u.own? s k = t.own? s k) (hl : t.layer? i = some l)
    (hm : u.layer? i = some m) : u.resolve? i k = t.resolve? i k := by
  refine h.resolve?_eq ht hu i m hm ⟨l, hl⟩ fun j hj => ?_
  by_cases hjs : j = s
  · exact hjs ▸ hk
  · obtain ⟨q, hq⟩ := hj.layer?_right
    exact h.own?_eq hjs hq k

/-- From a layer that rests on the changed one a key is resolved as from that one, unless a layer
before it has the key, as it had before. -/
lemma resolve?_of_restsOn (h : Confined s t u) (ht : t.WellFormed root) (hu : u.WellFormed root)
    (hrests : u.RestsOn i s) (hl : t.layer? i = some l) (k : Key) :
    u.resolve? i k = u.resolve? s k ∨ ∃ v : Supply, v.layer ≠ s ∧ u.RestsOn v.layer s ∧
      u.resolve? i k = some v ∧ t.resolve? i k = some v := by
  induction hrests generalizing l with
  | self _ => exact Or.inl rfl
  | @parent i p s m hm hp hrest ih =>
    by_cases his : i = s
    · exact Or.inl (congrArg (u.resolve? · k) his)
    have hown := h.own?_eq his hm k
    rw [own?_of_layer? hm, own?_of_layer? hl] at hown
    cases hv : l.entries.get? k with
    | some v =>
      exact Or.inr ⟨⟨i, v⟩, his, .parent hm hp hrest, hu.resolve?_of_get? hm (hown.trans hv),
        ht.resolve?_of_get? hl hv⟩
    | none =>
      have hparent := h.parent_eq ht hl hm
      rw [hu.resolve?_of_get?_eq_none hm (hown.trans hv), ht.resolve?_of_get?_eq_none hl hv,
        ← hparent, hp, Option.bind_some, Option.bind_some]
      obtain ⟨-, q, hq⟩ := ht.parent_exists hl (hparent ▸ hp)
      exact ih h hq

end Confined

/-! ## The exact effect -/

/-- What a change that concerns one layer leaves alone. -/
structure Leaves (s : LayerId) (t u : LayerTree) : Prop where
  /-- Every other layer has the entries that it had, and none if it is new. -/
  entries : ∀ i m, i ≠ s → u.layer? i = some m → m.entries = t.entriesOf i
  /-- From a layer that does not rest on the changed one every key is resolved as before. -/
  aside : ∀ i l m, t.layer? i = some l → u.layer? i = some m → ¬ u.RestsOn i s →
    ∀ k, u.resolve? i k = t.resolve? i k
  /-- A key of which the changed layer says what it said before is resolved as before from every
  layer. -/
  untouched : ∀ k, u.own? s k = t.own? s k → ∀ i l m, t.layer? i = some l → u.layer? i = some m →
    u.resolve? i k = t.resolve? i k
  /-- From a layer that rests on the changed one, any key is resolved as from that one, unless a layer
  before it has the key, as it had before. -/
  above : ∀ i l, t.layer? i = some l → u.RestsOn i s → ∀ k,
    u.resolve? i k = u.resolve? s k ∨ ∃ v : Supply, v.layer ≠ s ∧ u.RestsOn v.layer s ∧
      u.resolve? i k = some v ∧ t.resolve? i k = some v

lemma Confined.leaves (h : Confined s t u) (ht : t.WellFormed root) (hu : u.WellFormed root) :
    Leaves s t u where
  entries := h.entries
  aside := fun _ _ _ hl hm haside k => h.resolve?_eq_of_not_restsOn ht hu hl hm haside k
  untouched := fun _ hk _ _ _ hl hm => h.resolve?_eq_of_own?_eq ht hu hk hl hm
  above := fun _ _ hl hrests k => h.resolve?_of_restsOn ht hu hrests hl k

/-- A pair was added to a layer. -/
structure Added (s : LayerId) (language source target : String) (t u : LayerTree) : Prop where
  /-- The pair is there, in both directions. -/
  pair : u.own? s (.forward language source) = some target ∧
    u.own? s (.reverse language target) = some source
  /-- What the localized name was paired with before is free. -/
  freed : ∀ b, t.own? s (.forward language source) = some b → b ≠ target →
    u.own? s (.reverse language b) = none
  /-- What the canonical name was paired with before is free. -/
  evicted : ∀ a, t.own? s (.reverse language target) = some a → a ≠ source →
    u.own? s (.forward language a) = none
  /-- The layer says what it said before of all other keys. -/
  rest : ∀ k, k ≠ .forward language source → k ≠ .reverse language target →
    (∀ b, t.own? s (.forward language source) = some b → k ≠ .reverse language b) →
    (∀ a, t.own? s (.reverse language target) = some a → k ≠ .forward language a) →
    u.own? s k = t.own? s k
  /-- Nothing else changes. -/
  leaves : Leaves s t u

/-- The pair of a localized name was removed from a layer, if there was one. -/
structure Removed (s : LayerId) (language source : String) (t u : LayerTree)
    (answer : Option String) : Prop where
  /-- The answer is what the layer itself said of the name. -/
  told : answer = t.own? s (.forward language source)
  /-- Both entries of the pair were there and are gone. -/
  pair : ∀ target, answer = some target →
    t.own? s (.reverse language target) = some source ∧
    u.own? s (.forward language source) = none ∧ u.own? s (.reverse language target) = none
  /-- The layer says what it said before of all other keys. -/
  rest : ∀ target, answer = some target → ∀ k, k ≠ .forward language source →
    k ≠ .reverse language target → u.own? s k = t.own? s k
  /-- Both names are now resolved as from the parent of the layer, and not at all in the root. -/
  reveals : ∀ target, answer = some target → ∃ m, u.layer? s = some m ∧
    ∀ k, k = .forward language source ∨ k = .reverse language target →
      u.resolve? s k = m.parent.bind (u.resolve? · k)
  /-- If there was no pair, no entry changes in any layer. -/
  nothing : answer = none → ∀ i m, u.layer? i = some m → m.entries = t.entriesOf i
  /-- Nothing else changes. -/
  leaves : Leaves s t u

/-! ## The layer of an object -/

/-- The layer that is given to an object has the entries that it had, and none if it is new. -/
lemma WellFormed.entriesOf_ensure (h : t.WellFormed root) (ended : Lease → Bool) (c : Chain) :
    (t.ensure ended c).state.entriesOf (t.ensure ended c).result =
      t.entriesOf (t.ensure ended c).result := by
  obtain ⟨m, hm, -⟩ := h.layer?_ensure ended c
  rw [entriesOf_of_layer? hm, h.entries_ensure hm]

/-- What is written to the layer that an object is given stays there. -/
lemma WellFormed.own?_write (h : t.WellFormed root) (ended : Lease → Bool) (c : Chain) (e : Entries)
    (k : Key) :
    ((t.ensure ended c).state.setEntries (t.ensure ended c).result e).own?
      (t.ensure ended c).result k = e.get? k := by
  obtain ⟨m, hm, -⟩ := h.layer?_ensure ended c
  rw [own?, entriesOf_setEntries_self hm]

/-- What is written to the layer that an object is given changes nothing else. -/
lemma WellFormed.leaves_write (h : t.WellFormed root) (ended : Lease → Bool) (c : Chain)
    (e : Entries) :
    Leaves (t.ensure ended c).result t
      ((t.ensure ended c).state.setEntries (t.ensure ended c).result e) :=
  ((h.confined_ensure ended c _).setEntries e).leaves h ((h.ensure ended c).setEntries _ e)

/-- Where the layer of the object has no pair of the name, it is only given the layer. -/
lemma WellFormed.removed_of_own?_eq_none (h : t.WellFormed root) {language source : String}
    (hnone : t.own? (t.ensure ended c).result (.forward language source) = none) :
    Removed (t.ensure ended c).result language source t (t.ensure ended c).state none where
  told := hnone.symm
  pair := nofun
  rest := nofun
  reveals := nofun
  nothing := fun _ _ _ hm => h.entries_ensure hm
  leaves := (h.confined_ensure ended c _).leaves h (h.ensure ended c)

/-- Where the layer of the object has a pair of the name, both entries are removed from it. -/
lemma WellFormed.removed_of_own?_eq_some (h : t.WellFormed root) {language source target : String}
    (hpaired : (t.entriesOf (t.ensure ended c).result).Paired)
    (hsome : t.own? (t.ensure ended c).result (.forward language source) = some target) :
    Removed (t.ensure ended c).result language source t
      ((t.ensure ended c).state.setEntries (t.ensure ended c).result
        ((t.entriesOf (t.ensure ended c).result).unpair language source target))
      (some target) := by
  have hown := h.own?_write ended c
    ((t.entriesOf (t.ensure ended c).result).unpair language source target)
  have hforward := (hown (.forward language source)).trans
    ((Entries.get?_unpair_forward _ _ _ _ _ _).trans (if_pos ⟨rfl, rfl⟩))
  have hreverse := (hown (.reverse language target)).trans
    ((Entries.get?_unpair_reverse _ _ _ _ _ _).trans (if_pos ⟨rfl, rfl⟩))
  refine ⟨hsome.symm, ?_, ?_, ?_, nofun, h.leaves_write ended c _⟩
  · intro target' heq
    obtain rfl := Option.some.inj heq
    exact ⟨(hpaired _ _ _).1 hsome, hforward, hreverse⟩
  · intro target' heq k hf hr
    obtain rfl := Option.some.inj heq
    rw [hown, Entries.unpair, Entries.get?_erase, if_neg hr, Entries.get?_erase, if_neg hf]
    rfl
  · intro target' heq
    obtain rfl := Option.some.inj heq
    obtain ⟨l, hl, -⟩ := h.layer?_ensure ended c
    have hm := layer?_setEntries_self hl
      ((t.entriesOf (t.ensure ended c).result).unpair language source target)
    refine ⟨_, hm, fun k hk => ?_⟩
    refine ((h.ensure ended c).setEntries _ _).resolve?_of_get?_eq_none hm ?_
    rw [← own?_of_layer? hm]
    rcases hk with rfl | rfl
    · exact hforward
    · exact hreverse

end LayerTree

namespace Lexicon

open LayerTree (Added Removed)

variable {root : ObjectId} {x : Lexicon}

lemma Reachable.paired_entriesOf (h : Reachable root x) (i : LayerId) :
    (x.tree.entriesOf i).Paired :=
  (LayerTree.entriesOf_of_forall Entries.oneToOne_empty h.allOneToOne i).paired

lemma Reachable.added (h : Reachable root x) (ended : Lease → Bool) (c : Chain)
    (language source target : String) :
    Added (x.tree.ensure ended c).result (x.canonical language) source target x.tree
      (x.add ended c language source target).state.tree := by
  have hwf := h.tree.wellFormed
  have hpaired := h.paired_entriesOf (x.tree.ensure ended c).result
  have hold := hwf.entriesOf_ensure ended c
  have hown : ∀ k, (x.add ended c language source target).state.tree.own?
      (x.tree.ensure ended c).result k =
        ((x.tree.entriesOf (x.tree.ensure ended c).result).pair (x.canonical language) source
          target).entries.get? k := by
    intro k
    rw [← hold]
    exact hwf.own?_write ended c _ k
  refine ⟨⟨?_, ?_⟩, ?_, ?_, ?_, hwf.leaves_write ended c _⟩
  · rw [hown, Entries.get?_pair_forward hpaired, if_pos ⟨rfl, rfl⟩]
  · rw [hown, Entries.get?_pair_reverse hpaired, if_pos ⟨rfl, rfl⟩]
  · intro b hb hne
    rw [hown, Entries.get?_pair_reverse hpaired, if_neg fun hn => hne hn.2,
      if_pos ⟨rfl, (hpaired _ _ _).1 hb⟩]
  · intro a ha hne
    rw [hown, Entries.get?_pair_forward hpaired, if_neg fun hn => hne hn.2,
      if_pos ⟨rfl, (hpaired _ _ _).2 ha⟩]
  · -- a key that changed is one of the new pair or one of a pair that was in its way
    rintro ⟨d, l, name⟩ hforward hreverse hfreed hevicted
    rw [hown]
    cases d with
    | forward =>
      rw [Entries.get?_pair_forward hpaired, if_neg, if_neg]
      · rfl
      · rintro ⟨rfl, hname⟩
        exact hevicted name ((hpaired _ _ _).1 hname) rfl
      · rintro ⟨rfl, rfl⟩
        exact hforward rfl
    | reverse =>
      rw [Entries.get?_pair_reverse hpaired, if_neg, if_neg]
      · rfl
      · rintro ⟨rfl, hname⟩
        exact hfreed name ((hpaired _ _ _).2 hname) rfl
      · rintro ⟨rfl, rfl⟩
        exact hreverse rfl

lemma Reachable.removed (h : Reachable root x) (ended : Lease → Bool) (c : Chain)
    (language source : String) :
    Removed (x.tree.ensure ended c).result (x.canonical language) source x.tree
      (x.remove ended c language source).state.tree (x.remove ended c language source).result := by
  have hwf := h.tree.wellFormed
  have hpaired := h.paired_entriesOf (x.tree.ensure ended c).result
  simp only [Lexicon.remove, Lexicon.removeAt, hwf.entriesOf_ensure ended c]
  cases hget : (x.tree.entriesOf (x.tree.ensure ended c).result).get?
      (.forward (x.canonical language) source) with
  | none => exact hwf.removed_of_own?_eq_none hget
  | some target => exact hwf.removed_of_own?_eq_some hpaired hget

/-- **Writing touches the layer of the object alone, and no other pairs than those in its way.**
When a pair is added, the layer of the object differs by the pair itself and by the pairs that either
name was in.  When a pair is removed, the answer is what the layer itself said of the name; both
entries are gone from it, so that what the layer falls back to shows again, and if the layer had no
such pair nothing happens, whatever it falls back to.  All other layers keep their entries, and what
is resolved from them changes only where a changed entry of this layer is what they fall back to. -/
theorem Reachable.writing_confined (h : Reachable root x) (ended : Lease → Bool) (c : Chain)
    (language source target : String) :
    let s := (x.tree.ensure ended c).result
    let added := x.add ended c language source target
    let removed := x.remove ended c language source
    Added s (x.canonical language) source target x.tree added.state.tree ∧
      Removed s (x.canonical language) source x.tree removed.state.tree removed.result :=
  ⟨h.added ended c language source target, h.removed ended c language source⟩

/-- An object that delegates to another one, which delegates to the root object. -/
def heiress : Chain := ⟨⟨.minted 2, some 2⟩, [⟨.minted 1, some 1⟩, ⟨.minted 0, some 0⟩]⟩

/-- A lexicon in which an object overrides a pair of the one that it delegates to, and has another. -/
def shadowing : Lexicon :=
  let x := (start (.minted 0) .empty).state.add (fun _ => false) ⟨⟨.minted 1, some 1⟩,
    [⟨.minted 0, some 0⟩]⟩ "de" "los" "go"
  let y := x.state.add (fun _ => false) heiress "de" "los" "run"
  (y.state.add (fun _ => false) heiress "de" "geh" "walk").state

theorem Reachable.writing_confined_shadowing :
    Reachable (.minted 0) shadowing ∧
    Added 2 "de" "los" "walk" shadowing.tree
      (shadowing.add (fun _ => false) heiress "de" "los" "walk").state.tree ∧
    Removed 2 "de" "los" shadowing.tree
      (shadowing.remove (fun _ => false) heiress "de" "los").state.tree (some "run") := by
  have h : Reachable (.minted 0) shadowing :=
    (((Reachable.start .empty).add _ _ _ _ _).add _ _ _ _ _).add _ _ _ _ _
  exact ⟨h, Reachable.writing_confined h (fun _ => false) heiress "de" "los" "walk"⟩

-- removing the pair of the nearer object shows what it had covered, and only once
example :
    let x := (shadowing.remove (fun _ => false) heiress "de" "los").state
    x.tree.resolve? 2 (.forward "de" "los") = some ⟨1, "go"⟩ ∧
      (x.remove (fun _ => false) heiress "de" "los").result = none := by
  decide +kernel

end Lexicon

end Glossary
