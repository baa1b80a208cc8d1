import Glossary.Layer.Tree
import Mathlib.Tactic.Lemma

/-!
# Well-formed trees of layers

A tree of layers keeps several things twice.  The rows of `owners` repeat what the layers say
about their owners, the counts `heirs` repeat what the layers say about their parents, and the
order of the list repeats the order of the numbers.  `WellFormed` says that all of these agree.

In a well-formed tree the one pass of `lineage` over the list is the walk from parent to parent:
that is `lineage_eq`, and `resolve?` obeys the matching equations.  Later modules never look into
the pass again; they go from a layer to its parent by `WellFormed.walk`.
-/

namespace Glossary

namespace LayerTree

variable {root : ObjectId} {t : LayerTree}

/-- All that a tree of layers says twice is said alike. -/
structure WellFormed (root : ObjectId) (t : LayerTree) : Prop where
  /-- The layers are listed newest first, so no number occurs twice. -/
  newestFirst : t.layers.Pairwise fun l m => m.id < l.id
  /-- Every number in use is below the next one. -/
  fresh : ∀ l ∈ t.layers, l.id < t.nextId
  /-- The root layer belongs to the root object, which has no lease. -/
  base : ∃ l ∈ t.layers, l.id = .root ∧ l.owner = root ∧ l.lease = none
  /-- The root layer is the only one without a parent. -/
  top : ∀ l ∈ t.layers, l.parent = none ↔ l.id = .root
  /-- A parent is an older layer of the tree. -/
  older : ∀ l ∈ t.layers, ∀ p, l.parent = some p → p < l.id ∧ ∃ m ∈ t.layers, m.id = p
  /-- A layer counts those that fall back to it. -/
  tally : ∀ l ∈ t.layers, l.heirs = t.layers.countP fun m => m.parent = some l.id
  /-- The rows of `owners` are the owners of the layers. -/
  owned : ∀ o i, (o, i) ∈ t.owners ↔ ∃ l ∈ t.layers, l.id = i ∧ l.owner = o
  /-- No object owns two layers. -/
  single : ∀ l ∈ t.layers, ∀ m ∈ t.layers, l.owner = m.owner → l.id = m.id

/-! ## Looking up layers and owners -/

/-- In a list of layers, newest first, a number belongs to one layer only. -/
lemma eq_of_id_eq {ls : List Layer} (h : ls.Pairwise fun l m => m.id < l.id) {l m : Layer}
    (hl : l ∈ ls) (hm : m ∈ ls) (hid : l.id = m.id) : l = m := by
  induction ls with
  | nil => cases hl
  | cons a rest ih =>
    obtain ⟨ha, hrest⟩ := List.pairwise_cons.1 h
    rcases List.mem_cons.1 hl with rfl | hl'
    · rcases List.mem_cons.1 hm with rfl | hm'
      · rfl
      · exact absurd hid.symm (Nat.ne_of_lt (ha m hm'))
    · rcases List.mem_cons.1 hm with rfl | hm'
      · exact absurd hid (Nat.ne_of_lt (ha l hl'))
      · exact ih hrest hl' hm'

/-- Looking for a number in a list of layers, newest first, finds the layer with it. -/
lemma find?_id_eq_some_iff {ls : List Layer} (h : ls.Pairwise fun l m => m.id < l.id)
    {i : LayerId} {l : Layer} : ls.find? (·.id = i) = some l ↔ l ∈ ls ∧ l.id = i := by
  constructor
  · intro hf
    exact ⟨List.mem_of_find?_eq_some hf, by simpa using List.find?_some hf⟩
  · rintro ⟨hl, hi⟩
    cases hf : ls.find? (·.id = i) with
    | none =>
      have := List.find?_eq_none.1 hf l hl
      simp [hi] at this
    | some m =>
      have hm : m.id = i := by simpa using List.find?_some hf
      rw [eq_of_id_eq h (List.mem_of_find?_eq_some hf) hl (hm.trans hi.symm)]

lemma id_of_layer? {i : LayerId} {l : Layer} (h : t.layer? i = some l) : l.id = i := by
  simpa using List.find?_some h

lemma mem_of_layer? {i : LayerId} {l : Layer} (h : t.layer? i = some l) : l ∈ t.layers :=
  List.mem_of_find?_eq_some h

lemma entriesOf_of_layer? {i : LayerId} {l : Layer} (h : t.layer? i = some l) :
    t.entriesOf i = l.entries := by
  rw [entriesOf, h]

lemma layer?_eq_none_iff {i : LayerId} : t.layer? i = none ↔ ∀ l ∈ t.layers, l.id ≠ i := by
  simp [layer?, List.find?_eq_none]

namespace WellFormed

lemma layer?_eq_some_iff (h : t.WellFormed root) {i : LayerId} {l : Layer} :
    t.layer? i = some l ↔ l ∈ t.layers ∧ l.id = i :=
  find?_id_eq_some_iff h.newestFirst

lemma layer?_id (h : t.WellFormed root) {l : Layer} (hl : l ∈ t.layers) :
    t.layer? l.id = some l :=
  h.layer?_eq_some_iff.2 ⟨hl, rfl⟩

/-- The layer of an object is the one that it owns. -/
lemma layerOf?_eq_some_iff (h : t.WellFormed root) {o : ObjectId} {i : LayerId} :
    t.layerOf? o = some i ↔ ∃ l ∈ t.layers, l.id = i ∧ l.owner = o := by
  rw [← h.owned o i, layerOf?]
  -- two rows of one object would be two layers of one owner
  have hone : ∀ i j, (o, i) ∈ t.owners → (o, j) ∈ t.owners → i = j := by
    intro i j hi hj
    obtain ⟨l, hl, rfl, hlo⟩ := (h.owned o i).1 hi
    obtain ⟨m, hm, rfl, hmo⟩ := (h.owned o j).1 hj
    exact h.single l hl m hm (hlo.trans hmo.symm)
  clear h
  generalize t.owners = rows at hone ⊢
  induction rows with
  | nil => simp
  | cons r rest ih =>
    obtain ⟨k, j⟩ := r
    rw [lookup_cons_eq_ite]
    by_cases hk : o = k
    · subst hk
      simp only [if_true, Option.some.injEq]
      constructor
      · rintro rfl
        exact List.mem_cons_self
      · intro hi
        exact hone j i List.mem_cons_self hi
    · have hrest := ih fun i j hi hj =>
        hone i j (List.mem_cons_of_mem _ hi) (List.mem_cons_of_mem _ hj)
      rw [if_neg hk]
      simpa [hk] using hrest

lemma layerOf?_eq_none_iff (h : t.WellFormed root) {o : ObjectId} :
    t.layerOf? o = none ↔ ∀ l ∈ t.layers, l.owner ≠ o := by
  constructor
  · intro hn l hl ho
    rw [h.layerOf?_eq_some_iff.2 ⟨l, hl, rfl, ho⟩] at hn
    cases hn
  · intro hn
    cases hi : t.layerOf? o with
    | none => rfl
    | some i =>
      obtain ⟨l, hl, -, ho⟩ := h.layerOf?_eq_some_iff.1 hi
      exact absurd ho (hn l hl)

lemma lt_nextId (h : t.WellFormed root) {i : LayerId} {l : Layer} (hl : t.layer? i = some l) :
    i < t.nextId := by
  rw [← id_of_layer? hl]
  exact h.fresh l (mem_of_layer? hl)

lemma nodup_ids (h : t.WellFormed root) : (t.layers.map (·.id)).Nodup :=
  List.pairwise_map.2 (h.newestFirst.imp fun hlm => Ne.symm (Nat.ne_of_lt hlm))

/-- A layer that an object owns is there, and says so. -/
lemma layer?_of_layerOf? (h : t.WellFormed root) {o : ObjectId} {i : LayerId}
    (ho : t.layerOf? o = some i) : ∃ l, t.layer? i = some l ∧ l.owner = o := by
  obtain ⟨l, hl, rfl, hlo⟩ := h.layerOf?_eq_some_iff.1 ho
  exact ⟨l, h.layer?_id hl, hlo⟩

lemma layerOf?_owner (h : t.WellFormed root) {i : LayerId} {l : Layer}
    (hl : t.layer? i = some l) : t.layerOf? l.owner = some i :=
  h.layerOf?_eq_some_iff.2 ⟨l, mem_of_layer? hl, id_of_layer? hl, rfl⟩

/-- The root object owns the root layer. -/
lemma layerOf?_root (h : t.WellFormed root) : t.layerOf? root = some .root := by
  obtain ⟨l, hl, hi, ho, -⟩ := h.base
  exact h.layerOf?_eq_some_iff.2 ⟨l, hl, hi, ho⟩

lemma ne_root_of_layerOf? (h : t.WellFormed root) {o : ObjectId} (ho : t.layerOf? o = none) :
    o ≠ root := by
  rintro rfl
  rw [h.layerOf?_root] at ho
  cases ho

lemma eq_root_of_owner (h : t.WellFormed root) {i : LayerId} {l : Layer}
    (hl : t.layer? i = some l) (ho : l.owner = root) : i = .root := by
  have hi := h.layerOf?_owner hl
  rw [ho, h.layerOf?_root] at hi
  exact (Option.some.inj hi).symm

/-- The layer with the number of the root. -/
lemma layer?_root (h : t.WellFormed root) :
    ∃ l, t.layer? .root = some l ∧ l.owner = root ∧ l.parent = none ∧ l.lease = none := by
  obtain ⟨l, hl, hi, ho, hn⟩ := h.base
  exact ⟨l, h.layer?_eq_some_iff.2 ⟨hl, hi⟩, ho, (h.top l hl).2 hi, hn⟩

lemma owner_of_parent_eq_none (h : t.WellFormed root) {i : LayerId} {l : Layer}
    (hl : t.layer? i = some l) (hp : l.parent = none) : i = .root ∧ l.owner = root := by
  have hi : i = .root := (id_of_layer? hl).symm.trans ((h.top l (mem_of_layer? hl)).1 hp)
  obtain ⟨m, hm, ho, -, -⟩ := h.layer?_root
  rw [hi, hm] at hl
  cases hl
  exact ⟨hi, ho⟩

lemma parent_exists (h : t.WellFormed root) {i : LayerId} {l : Layer} (hl : t.layer? i = some l)
    {p : LayerId} (hp : l.parent = some p) : p < i ∧ ∃ m, t.layer? p = some m := by
  obtain ⟨hlt, m, hm, rfl⟩ := h.older l (mem_of_layer? hl) p hp
  exact ⟨(id_of_layer? hl) ▸ hlt, m, h.layer?_id hm⟩

/-- What holds of a layer whenever it holds of its parent holds of every layer. -/
lemma walk (h : t.WellFormed root) {P : LayerId → Prop}
    (step : ∀ i l, t.layer? i = some l → (∀ p, l.parent = some p → P p) → P i) :
    ∀ i l, t.layer? i = some l → P i := by
  intro i
  induction i using Nat.strongRecOn with
  | ind i ih =>
    intro l hl
    refine step i l hl fun p hp => ?_
    obtain ⟨hlt, m, hm⟩ := h.parent_exists hl hp
    exact ih p hlt m hm

end WellFormed

/-! ## Falling back -/

/-- Layers that are newer than the one looked for are passed over. -/
lemma lineageIn_cons_of_lt {m : Layer} {ls : List Layer} {p : Option LayerId}
    (h : ∀ q, p = some q → q < m.id) : lineageIn (m :: ls) p = lineageIn ls p := by
  cases p with
  | none => cases ls <;> rfl
  | some q =>
    rw [lineageIn, if_neg (Nat.ne_of_gt (h q rfl))]

/-- The pass over the list goes from a layer to its parent. -/
lemma lineageIn_eq {ls : List Layer} (horder : ls.Pairwise fun l m => m.id < l.id)
    (hparent : ∀ l ∈ ls, ∀ p, l.parent = some p → p < l.id) (i : LayerId) :
    lineageIn ls (some i) =
      match ls.find? (·.id = i) with
      | none => []
      | some l => l :: lineageIn ls l.parent := by
  induction ls with
  | nil => rfl
  | cons m rest ih =>
    obtain ⟨hm, hrest⟩ := List.pairwise_cons.1 horder
    by_cases hi : m.id = i
    · rw [lineageIn, if_pos hi, List.find?_cons_of_pos (by simpa using hi)]
      simp only [lineageIn_cons_of_lt (hparent m List.mem_cons_self)]
    · rw [lineageIn, if_neg hi, List.find?_cons_of_neg (by simpa using hi)]
      rw [ih hrest fun l hl => hparent l (List.mem_cons_of_mem _ hl)]
      cases hf : rest.find? (·.id = i) with
      | none => rfl
      | some l =>
        -- the first layer is newer than the one found, so also newer than the parent of that
        have hl := List.mem_of_find?_eq_some hf
        have hlt : ∀ q, l.parent = some q → q < m.id := fun q hq =>
          Nat.lt_trans (hparent l (List.mem_cons_of_mem _ hl) q hq) (hm l hl)
        simp only [lineageIn_cons_of_lt hlt]

lemma lineageIn_none (ls : List Layer) : lineageIn ls none = [] := by
  cases ls <;> rfl

/-- The pass meets layers in the order of the list, and none twice. -/
lemma lineageIn_sublist (ls : List Layer) (p : Option LayerId) : (lineageIn ls p).Sublist ls := by
  induction ls generalizing p with
  | nil => cases p <;> exact .slnil
  | cons m rest ih =>
    cases p with
    | none => exact List.nil_sublist _
    | some i =>
      rw [lineageIn]
      split
      · exact (ih m.parent).cons_cons m
      · exact (ih (some i)).cons m

namespace WellFormed

/-- The lineage of a layer is the layer and the lineage of its parent. -/
lemma lineage_eq (h : t.WellFormed root) {i : LayerId} {l : Layer} (hl : t.layer? i = some l) :
    t.lineage i = l :: match l.parent with
      | none => []
      | some p => t.lineage p := by
  rw [lineage, lineageIn_eq h.newestFirst fun l hl p hp => (h.older l hl p hp).1]
  rw [layer?] at hl
  simp only [hl]
  cases l.parent with
  | none => rw [lineageIn_none]
  | some p => rfl

lemma resolve?_of_get? (h : t.WellFormed root) {i : LayerId} {l : Layer}
    (hl : t.layer? i = some l) {k : Key} {v : String} (hv : l.entries.get? k = some v) :
    t.resolve? i k = some ⟨i, v⟩ := by
  rw [resolve?, h.lineage_eq hl, List.findSome?_cons, hv, Option.map_some, id_of_layer? hl]

lemma resolve?_of_get?_eq_none (h : t.WellFormed root) {i : LayerId} {l : Layer}
    (hl : t.layer? i = some l) {k : Key} (hv : l.entries.get? k = none) :
    t.resolve? i k = l.parent.bind (t.resolve? · k) := by
  rw [resolve?, h.lineage_eq hl, List.findSome?_cons, hv, Option.map_none]
  cases l.parent with
  | none => rfl
  | some p => rfl

/-- From a number without a layer no key is resolved. -/
lemma resolve?_of_layer?_eq_none (h : t.WellFormed root) {i : LayerId} (hi : t.layer? i = none)
    (k : Key) : t.resolve? i k = none := by
  rw [resolve?, lineage, lineageIn_eq h.newestFirst fun l hl p hp => (h.older l hl p hp).1]
  rw [layer?] at hi
  simp only [hi, List.findSome?_nil]

lemma layer?_of_resolve? (h : t.WellFormed root) {i : LayerId} {k : Key} {s : Supply}
    (hs : t.resolve? i k = some s) : ∃ l, t.layer? i = some l := by
  cases hi : t.layer? i with
  | some l => exact ⟨l, rfl⟩
  | none =>
    rw [h.resolve?_of_layer?_eq_none hi] at hs
    cases hs

/-- A tree that has all layers of another, the same but for their counts, resolves every key from
them as the other does. -/
lemma resolve?_eq_of_stays {u : LayerTree} (h : t.WellFormed root) (hu : u.WellFormed root)
    (hstays : ∀ i l, t.layer? i = some l → ∃ n, u.layer? i = some { l with heirs := n }) (k : Key) :
    ∀ i l, t.layer? i = some l → u.resolve? i k = t.resolve? i k := by
  refine h.walk fun i l hl ih => ?_
  obtain ⟨n, hn⟩ := hstays i l hl
  cases hv : l.entries.get? k with
  | some v => rw [hu.resolve?_of_get? hn hv, h.resolve?_of_get? hl hv]
  | none =>
    rw [hu.resolve?_of_get?_eq_none hn hv, h.resolve?_of_get?_eq_none hl hv]
    cases hp : l.parent with
    | none => rfl
    | some p => exact ih p hp

end WellFormed

/-! ## The first tree, and changes of entries -/

lemma wellFormed_start (root : ObjectId) : (start root).WellFormed root where
  newestFirst := List.pairwise_singleton _ _
  fresh := by simp [start, LayerId.root]
  base := ⟨_, List.mem_singleton_self _, rfl, rfl, rfl⟩
  top := by simp [start]
  older := by simp [start]
  tally := by simp [start]
  owned := by
    intro o i
    simp [start, and_comm, eq_comm]
  single := by simp [start]

/-- Changing entries changes no more than entries. -/
lemma mem_setEntries {i : LayerId} {e : Entries} {m : Layer} (hm : m ∈ (t.setEntries i e).layers) :
    ∃ l ∈ t.layers, m.id = l.id ∧ m.owner = l.owner ∧ m.parent = l.parent ∧ m.lease = l.lease ∧
      m.heirs = l.heirs := by
  simp only [setEntries, List.mem_map] at hm
  obtain ⟨l, hl, rfl⟩ := hm
  refine ⟨l, hl, ?_⟩
  split <;> simp

lemma mem_setEntries_of_mem (i : LayerId) (e : Entries) {l : Layer} (hl : l ∈ t.layers) :
    ∃ m ∈ (t.setEntries i e).layers, m.id = l.id ∧ m.owner = l.owner ∧ m.parent = l.parent ∧
      m.lease = l.lease ∧ m.heirs = l.heirs := by
  refine ⟨_, List.mem_map_of_mem hl, ?_⟩
  split <;> simp

lemma WellFormed.setEntries (h : t.WellFormed root) (i : LayerId) (e : Entries) :
    (t.setEntries i e).WellFormed root where
  newestFirst := by
    refine List.pairwise_map.2 (h.newestFirst.imp fun {l m} hlm => ?_)
    split <;> split <;> simpa using hlm
  fresh := by
    intro m hm
    obtain ⟨l, hl, hid, -⟩ := mem_setEntries hm
    rw [hid]
    exact h.fresh l hl
  base := by
    obtain ⟨l, hl, hi, ho, hn⟩ := h.base
    obtain ⟨m, hm, hid, how, -, hle, -⟩ := mem_setEntries_of_mem i e hl
    exact ⟨m, hm, hid.trans hi, how.trans ho, hle.trans hn⟩
  top := by
    intro m hm
    obtain ⟨l, hl, hid, -, hp, -⟩ := mem_setEntries hm
    rw [hp, hid]
    exact h.top l hl
  older := by
    intro m hm p hp
    obtain ⟨l, hl, hid, -, hpar, -⟩ := mem_setEntries hm
    obtain ⟨hlt, q, hq, hqi⟩ := h.older l hl p (hpar ▸ hp)
    obtain ⟨q', hq', hid', -⟩ := mem_setEntries_of_mem i e hq
    exact ⟨hid ▸ hlt, q', hq', hid'.trans hqi⟩
  tally := by
    intro m hm
    obtain ⟨l, hl, hid, -, -, -, hh⟩ := mem_setEntries hm
    rw [hh, h.tally l hl, hid, LayerTree.setEntries, List.countP_map]
    refine List.countP_congr fun q _ => ?_
    simp only [Function.comp_apply]
    split <;> rfl
  owned := by
    intro o j
    have howners : (t.setEntries i e).owners = t.owners := rfl
    rw [howners, h.owned o j]
    constructor
    · rintro ⟨l, hl, hj, ho⟩
      obtain ⟨m, hm, hid, how, -⟩ := mem_setEntries_of_mem i e hl
      exact ⟨m, hm, hid.trans hj, how.trans ho⟩
    · rintro ⟨m, hm, hj, ho⟩
      obtain ⟨l, hl, hid, how, -⟩ := mem_setEntries hm
      exact ⟨l, hl, hid.symm.trans hj, how.symm.trans ho⟩
  single := by
    intro m hm m' hm' ho
    obtain ⟨l, hl, hid, how, -⟩ := mem_setEntries hm
    obtain ⟨l', hl', hid', how', -⟩ := mem_setEntries hm'
    rw [hid, hid']
    exact h.single l hl l' hl' (how.symm.trans (ho.trans how'))

end LayerTree

end Glossary
