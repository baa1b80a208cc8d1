import Glossary.Proofs.Layer.Graft

/-!
# The trees that can arise

A tree of layers starts with the root layer alone and changes in two ways: an object is given a
layer, which may prune the tree first, or the entries of a layer are replaced.  What the owners of
the layers are, what they delegate to and which leases have ended is up to the outside, and may be
different at every step.

`Reachable.consistent` says what a user of such a tree can count on.  In particular no lookup ever
meets a layer that is missing, and no count of heirs is ever reduced below zero: the defaults that
the definitions have for these cases are never used.
-/

namespace Glossary

namespace LayerTree

variable {root : ObjectId} {t : LayerTree} {i : LayerId}

/-- The trees that can arise from the first tree for a root object. -/
inductive Reachable (root : ObjectId) : LayerTree → Prop
  /-- Only the root object has a layer. -/
  | start : Reachable root (start root)
  /-- An object is given a layer. -/
  | ensure {t : LayerTree} (h : Reachable root t) (ended : Lease → Bool) (c : Chain) :
    Reachable root (t.ensure ended c).state
  /-- The entries of a layer are replaced; adding or removing a key are special cases. -/
  | setEntries {t : LayerTree} (h : Reachable root t) (i : LayerId) (e : Entries) :
    Reachable root (t.setEntries i e)

lemma Reachable.wellFormed (h : Reachable root t) : t.WellFormed root := by
  induction h with
  | start => exact wellFormed_start root
  | ensure _ ended c ih => exact ih.ensure ended c
  | setEntries _ i e ih => exact ih.setEntries i e

/-! ## From a layer to the root -/

/-- Going from parent to parent, one layer after another is met, none of them is missing, and the
last has no parent. -/
inductive FallsBack (t : LayerTree) : LayerId → List Layer → Prop
  /-- The walk ends at a layer without a parent. -/
  | last {i : LayerId} {l : Layer} (hl : t.layer? i = some l) (hp : l.parent = none) :
    FallsBack t i [l]
  /-- The walk goes on with the parent. -/
  | next {i p : LayerId} {l : Layer} {ls : List Layer} (hl : t.layer? i = some l)
    (hp : l.parent = some p) (h : FallsBack t p ls) : FallsBack t i (l :: ls)

/-- The lineage of a layer is the walk to the root. -/
lemma WellFormed.fallsBack (h : t.WellFormed root) :
    ∀ i l, t.layer? i = some l → t.FallsBack i (t.lineage i) := by
  refine h.walk fun i l hl ih => ?_
  rw [h.lineage_eq hl]
  cases hp : l.parent with
  | none => exact .last hl hp
  | some p => exact .next hl hp (ih p hp)

/-- The walk ends at the root. -/
lemma FallsBack.getLast?_eq {ls : List Layer} (hls : t.FallsBack i ls) (h : t.WellFormed root) :
    ∃ b, ls.getLast? = some b ∧ b.id = .root := by
  induction hls with
  | last hl hp => exact ⟨_, rfl, (h.top _ (mem_of_layer? hl)).1 hp⟩
  | next hl hp hrest ih =>
    obtain ⟨b, hb, hid⟩ := ih
    exact ⟨b, by rw [List.getLast?_cons, hb]; rfl, hid⟩

/-- A key is resolved in the nearest layer that has it. -/
lemma resolve?_eq_some_iff (t : LayerTree) (i : LayerId) (k : Key) (j : LayerId) (v : String) :
    t.resolve? i k = some ⟨j, v⟩ ↔ ∃ nearer m farther, t.lineage i = nearer ++ m :: farther ∧
      m.id = j ∧ m.entries.get? k = some v ∧ ∀ n ∈ nearer, n.entries.get? k = none := by
  rw [resolve?, List.findSome?_eq_some_iff]
  constructor
  · rintro ⟨nearer, m, farther, hsplit, hm, hnearer⟩
    obtain ⟨w, hw, hs⟩ := Option.map_eq_some_iff.1 hm
    obtain ⟨rfl, rfl⟩ := Supply.mk.inj hs
    exact ⟨nearer, m, farther, hsplit, rfl, hw, fun n hn => Option.map_eq_none_iff.1 (hnearer n hn)⟩
  · rintro ⟨nearer, m, farther, hsplit, rfl, hv, hnearer⟩
    refine ⟨nearer, m, farther, hsplit, ?_, fun n hn => ?_⟩
    · rw [hv, Option.map_some]
    · rw [hnearer n hn, Option.map_none]

/-! ## What can be counted on -/

/-- What a user of a tree of layers can count on. -/
structure Consistent (root : ObjectId) (t : LayerTree) : Prop where
  /-- Each layer is listed once, under its number. -/
  listed : (t.layers.map (·.id)).Nodup ∧ ∀ l ∈ t.layers, t.layer? l.id = some l
  /-- The root layer is there.  It has no parent, the root object owns it and no lease bounds it. -/
  base : ∃ l, t.layer? .root = some l ∧ l.parent = none ∧ l.owner = root ∧ l.lease = none
  /-- Every other layer has a parent, which is there and older. -/
  older : ∀ i l, t.layer? i = some l → i ≠ .root →
    ∃ p m, l.parent = some p ∧ p < i ∧ t.layer? p = some m
  /-- Every number in use is below the next one. -/
  fresh : ∀ i l, t.layer? i = some l → i < t.nextId
  /-- A layer counts the layers that fall back to it. -/
  tally : ∀ i l, t.layer? i = some l → l.heirs = t.layers.countP fun m => m.parent = some i
  /-- The layer of an object is the one that it owns. -/
  owned : ∀ o i, t.layerOf? o = some i ↔ ∃ l, t.layer? i = some l ∧ l.owner = o
  /-- No two layers have one owner. -/
  single : ∀ i j l m, t.layer? i = some l → t.layer? j = some m → l.owner = m.owner → i = j
  /-- From every layer the walk from parent to parent ends at the root, and a key is resolved in
  the nearest layer on the walk that has it. -/
  resolves : ∀ i l, t.layer? i = some l → ∃ ls, t.FallsBack i ls ∧
    (∃ b, ls.getLast? = some b ∧ b.id = .root) ∧
    ∀ k j v, t.resolve? i k = some ⟨j, v⟩ ↔ ∃ nearer m farther, ls = nearer ++ m :: farther ∧
      m.id = j ∧ m.entries.get? k = some v ∧ ∀ n ∈ nearer, n.entries.get? k = none
  /-- Whenever a layer is grafted, the layer below it is there. -/
  supported : ∀ ended (c : Chain), (t.tidy ended).Supported
    ((t.tidy ended).survey [] c.links).anchor ((t.tidy ended).survey [] c.links).pending
  /-- The layer that an object is given, to which its pairs are written, is there. -/
  given : ∀ ended c, ∃ l, (t.ensure ended c).state.layer? (t.ensure ended c).result = some l ∧
    l.owner = c.self.id
  /-- Whenever a count of heirs is reduced, it holds enough. -/
  neverShort : ∀ ended, NeverShort ended [] t.layers

/-- **Every tree that can arise is consistent.** -/
theorem Reachable.consistent (h : Reachable root t) : t.Consistent root := by
  have hwf := h.wellFormed
  refine ⟨⟨?_, fun l hl => hwf.layer?_id hl⟩, ?_, ?_, ?_, ?_, ?_, ?_, ?_, ?_, ?_, ?_⟩
  · exact List.pairwise_map.2 (hwf.newestFirst.imp fun hlm => Ne.symm (Nat.ne_of_lt hlm))
  · obtain ⟨l, hl, ho, hp, hle⟩ := hwf.layer?_root
    exact ⟨l, hl, hp, ho, hle⟩
  · intro i l hl hi
    cases hp : l.parent with
    | none => exact absurd (hwf.owner_of_parent_eq_none hl hp).1 hi
    | some p =>
      obtain ⟨hlt, m, hm⟩ := hwf.parent_exists hl hp
      exact ⟨p, m, rfl, hlt, hm⟩
  · intro i l hl
    exact (id_of_layer? hl) ▸ hwf.fresh l (mem_of_layer? hl)
  · intro i l hl
    rw [hwf.tally l (mem_of_layer? hl), id_of_layer? hl]
  · intro o i
    constructor
    · exact hwf.layer?_of_layerOf?
    · rintro ⟨l, hl, rfl⟩
      exact hwf.layerOf?_owner hl
  · intro i j l m hl hm ho
    rw [← id_of_layer? hl, ← id_of_layer? hm]
    exact hwf.single l (mem_of_layer? hl) m (mem_of_layer? hm) ho
  · intro i l hl
    have hwalk := hwf.fallsBack i l hl
    exact ⟨t.lineage i, hwalk, hwalk.getLast?_eq hwf, t.resolve?_eq_some_iff i⟩
  · intro ended c
    have htidy := hwf.tidy ended
    obtain ⟨p, hp⟩ := htidy.anchor_exists c.links
    exact htidy.supported hp (surveyed (bare_nil _) c.links).bare
  · exact fun ended c => hwf.layer?_ensure ended c
  · exact fun ended => hwf.tallied.neverShort

/-- A tree from which layers were removed: the leases of a chain of sixty-three objects end, after
that a new object receives a layer, and an entry is put into it. -/
def thinned : LayerTree :=
  let link (n : Nat) : Link := ⟨.minted n, some n⟩
  let t := (start (.minted 0)).ensure (fun _ => false) ⟨link 63, (List.range 63).reverse.map link⟩
  let u := t.state.ensure (fun k => decide (0 < k) && decide (k < 64)) ⟨link 64, [link 0]⟩
  u.state.setEntries u.result ⟨[(.forward "de" "los", "go")]⟩

theorem Reachable.consistent_thinned :
    Reachable (.minted 0) thinned ∧ Consistent (.minted 0) thinned := by
  have h : Reachable (.minted 0) thinned := ((Reachable.start.ensure _ _).ensure _ _).setEntries _ _
  exact ⟨h, Reachable.consistent h⟩

-- two of the sixty-five layers are left
example : thinned.count = 2 ∧ thinned.nextId = 65 := by decide +kernel

end LayerTree

end Glossary
