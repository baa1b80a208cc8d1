import Glossary.Proofs.Layer.Graft

/-!
# A tree that keeps what another has removed

Two trees grow side by side, and only the first is pruned.  `Covers` is what they then have in
common: every layer of the first is a layer of the second, under the same number and with the same
parent and entries, and what the second has beyond that belongs to objects whose leases have ended.

An object that the first tree has no layer for, and whose lease is running, has no layer in the
second tree either.  So a walk along a chain of such objects goes the same way in both trees, new
layers receive the same numbers, and keys are resolved alike.
-/

namespace Glossary

namespace LayerTree

/-- The second tree has all layers of the first, and beyond that only layers of objects whose
leases have ended.  The lease of an object is the one that `handle` gives. -/
structure Covers (root : ObjectId) (handle : ObjectId → Option Lease) (ended : Lease → Bool)
    (t u : LayerTree) : Prop where
  /-- The first tree is well formed. -/
  pruned : t.WellFormed root
  /-- The second tree is well formed. -/
  whole : u.WellFormed root
  /-- Both trees give the same number next. -/
  nextId : u.nextId = t.nextId
  /-- A layer of the first tree is one of the second, but for its count. -/
  stays : ∀ i l, t.layer? i = some l → ∃ n, u.layer? i = some { l with heirs := n }
  /-- What only the second tree has belongs to an object whose lease has ended. -/
  gone : ∀ i m, u.layer? i = some m → t.layer? i = none → m.isEnded ended = true
  /-- The lease of a layer is the lease of its owner. -/
  leases : ∀ i m, u.layer? i = some m → i ≠ .root → m.lease = handle m.owner

variable {root : ObjectId} {handle : ObjectId → Option Lease} {ended : Lease → Bool}
  {t u : LayerTree} {x : Link} {i parent : LayerId} {pending links xs : List Link}

lemma covers_start (root : ObjectId) (handle : ObjectId → Option Lease) (ended : Lease → Bool) :
    Covers root handle ended (start root) (start root) where
  pruned := wellFormed_start root
  whole := wellFormed_start root
  nextId := rfl
  stays := fun _ l hl => ⟨l.heirs, hl⟩
  gone := by
    intro i m hm hn
    rw [hm] at hn
    cases hn
  leases := by
    intro i m hm hi
    have hmem := mem_of_layer? hm
    obtain rfl := List.mem_singleton.1 hmem
    exact absurd (id_of_layer? hm).symm hi

namespace Covers

/-! ## What both trees say -/

/-- Leases that end later do not matter. -/
lemma mono (h : Covers root handle ended t u) {ended' : Lease → Bool}
    (hmono : ∀ k, ended k = true → ended' k = true) : Covers root handle ended' t u where
  pruned := h.pruned
  whole := h.whole
  nextId := h.nextId
  stays := h.stays
  gone := by
    intro i m hm hn
    have hended := h.gone i m hm hn
    rw [Layer.isEnded] at hended ⊢
    obtain ⟨k, hk, hek⟩ := (Option.any_eq_true _ _).1 hended
    exact (Option.any_eq_true _ _).2 ⟨k, hk, hmono k hek⟩
  leases := h.leases

lemma layerOf?_of_eq_some (h : Covers root handle ended t u) {o : ObjectId}
    (ho : t.layerOf? o = some i) : u.layerOf? o = some i := by
  obtain ⟨l, hl, rfl⟩ := h.pruned.layer?_of_layerOf? ho
  obtain ⟨n, hn⟩ := h.stays i l hl
  have howner := h.whole.layerOf?_owner hn
  exact howner

/-- An object without a layer in the first tree whose lease is running has none in the second. -/
lemma layerOf?_of_eq_none (h : Covers root handle ended t u) (hlease : x.lease = handle x.id)
    (hrunning : x.lease.any ended = false) (hx : t.layerOf? x.id = none) :
    u.layerOf? x.id = none := by
  cases hi : u.layerOf? x.id with
  | none => rfl
  | some i =>
    obtain ⟨m, hm, hmx⟩ := h.whole.layer?_of_layerOf? hi
    cases hl : t.layer? i with
    | some l =>
      obtain ⟨n, hn⟩ := h.stays i l hl
      rw [hn] at hm
      cases hm
      rw [← hmx, h.pruned.layerOf?_owner hl] at hx
      cases hx
    | none =>
      -- the layer was removed, so the lease that it shares with the object has ended
      have hroot : i ≠ .root := by
        rintro rfl
        obtain ⟨b, hb, -⟩ := h.pruned.layer?_root
        rw [hl] at hb
        cases hb
      have hended := h.gone i m hm hl
      rw [Layer.isEnded, h.leases i m hm hroot, hmx, ← hlease, hrunning] at hended
      cases hended

lemma entriesOf_eq (h : Covers root handle ended t u) {l : Layer} (hl : t.layer? i = some l) :
    u.entriesOf i = t.entriesOf i := by
  obtain ⟨n, hn⟩ := h.stays i l hl
  rw [entriesOf_of_layer? hn, entriesOf_of_layer? hl]

/-- A key is resolved alike from every layer of the first tree. -/
lemma resolve?_eq (h : Covers root handle ended t u) (k : Key) :
    ∀ i l, t.layer? i = some l → u.resolve? i k = t.resolve? i k :=
  h.pruned.resolve?_eq_of_stays h.whole h.stays k

/-- A walk that passes no object whose lease has ended goes the same way in both trees. -/
lemma survey_eq (h : Covers root handle ended t u)
    (hlease : ∀ y ∈ pending ++ links, y.lease = handle y.id)
    (hrunning : ∀ y ∈ (t.survey pending links).pending, y.lease.any ended = false) :
    u.survey pending links = t.survey pending links := by
  induction links generalizing pending with
  | nil => rfl
  | cons x rest ih =>
    have hxl : x.lease = handle x.id := hlease x (by simp)
    cases hx : t.layerOf? x.id with
    | some i => rw [survey_of_owned hx, survey_of_owned (h.layerOf?_of_eq_some hx)]
    | none =>
      by_cases hseen : ∃ y ∈ pending, y.id = x.id
      · -- the lease of the object is that of an object passed before
        obtain ⟨y, hy, hid⟩ := hseen
        have hyr := hrunning y (mem_survey_of_mem hy t (x :: rest))
        have hyl : y.lease = x.lease := by
          rw [hxl, ← hid]
          exact hlease y (by simp [hy])
        have hx' := h.layerOf?_of_eq_none hxl (hyl ▸ hyr) hx
        rw [survey_of_repeated hx ⟨y, hy, hid⟩, survey_of_repeated hx' ⟨y, hy, hid⟩]
      · have hnew : ∀ y ∈ pending, y.id ≠ x.id := fun y hy hid => hseen ⟨y, hy, hid⟩
        rw [survey_of_new hx hnew] at hrunning
        have hxr := hrunning x (mem_survey_of_mem List.mem_cons_self t rest)
        have hx' := h.layerOf?_of_eq_none hxl hxr hx
        rw [survey_of_new hx hnew, survey_of_new hx' hnew]
        refine ih (fun y hy => hlease y ?_) hrunning
        simp only [List.mem_append, List.mem_cons] at hy ⊢
        rcases hy with (rfl | hy) | hy
        · exact Or.inr (Or.inl rfl)
        · exact Or.inl hy
        · exact Or.inr (Or.inr hy)

/-! ## What both trees do -/

/-- Pruning the first tree. -/
lemma tidy (h : Covers root handle ended t u) : Covers root handle ended (t.tidy ended) u := by
  have hthin := h.pruned.thinned_tidy ended
  refine ⟨h.pruned.tidy ended, h.whole, h.nextId.trans hthin.nextId.symm, ?_, ?_, h.leases⟩
  · intro i m hm
    obtain ⟨l, n, hl, rfl⟩ := hthin.stays i m hm
    obtain ⟨n', hn'⟩ := h.stays i l hl
    exact ⟨n', hn'⟩
  · intro i m hm hn
    cases hl : t.layer? i with
    | none => exact h.gone i m hm hl
    | some l =>
      obtain ⟨n', hn'⟩ := h.stays i l hl
      rw [hn'] at hm
      cases hm
      exact hthin.gone i l hl hn

/-- The same graft on both trees. -/
lemma graft (h : Covers root handle ended t u) {p : Layer} (hp : t.layer? parent = some p)
    (hxl : x.lease = handle x.id) (hx : t.layerOf? x.id = none) (hx' : u.layerOf? x.id = none) :
    Covers root handle ended (t.graft x parent) (u.graft x parent) := by
  obtain ⟨n, hn⟩ := h.stays parent p hp
  refine ⟨h.pruned.graft hp hx, h.whole.graft hn hx', ?_, ?_, ?_, ?_⟩
  · exact congrArg (· + 1) h.nextId
  · intro i l hl
    rcases layer?_of_layer?_graft hl with ⟨rfl, rfl⟩ | ⟨m, k, hm, rfl⟩
    · refine ⟨0, ?_⟩
      rw [← h.nextId]
      exact layer?_graft_self u x parent
    · obtain ⟨k', hk'⟩ := h.stays i m hm
      exact h.whole.layer?_graft_of_layer? hk' x parent
  · -- the new layer is in both trees, so only the old ones are in question
    intro i m hm hnone
    rcases layer?_of_layer?_graft hm with ⟨rfl, rfl⟩ | ⟨l, k, hl, rfl⟩
    · rw [h.nextId, layer?_graft_self] at hnone
      cases hnone
    · refine h.gone i l hl ?_
      cases ht : t.layer? i with
      | none => rfl
      | some l' =>
        obtain ⟨k', hk'⟩ := h.pruned.layer?_graft_of_layer? ht x parent
        rw [hnone] at hk'
        cases hk'
  · intro i m hm hi
    rcases layer?_of_layer?_graft hm with ⟨-, rfl⟩ | ⟨l, k, hl, rfl⟩
    · exact hxl
    · exact h.leases i l hl hi

/-- The same grafts on both trees end at the same layer. -/
lemma graftAll (h : Covers root handle ended t u) {p : Layer} (hp : t.layer? parent = some p)
    (hxl : ∀ x ∈ xs, x.lease = handle x.id) (hxs : t.Bare xs) (hxs' : u.Bare xs) :
    Covers root handle ended (t.graftAll parent xs).state (u.graftAll parent xs).state ∧
      (u.graftAll parent xs).result = (t.graftAll parent xs).result := by
  induction xs generalizing t u parent p with
  | nil => exact ⟨h, rfl⟩
  | cons x rest ih =>
    have hgraft := h.graft hp (hxl x List.mem_cons_self) hxs.head hxs'.head
    have hrest := ih hgraft (layer?_graft_self t x parent)
      (fun y hy => hxl y (List.mem_cons_of_mem _ hy)) (hxs.graft parent) (hxs'.graft parent)
    rw [LayerTree.graftAll, LayerTree.graftAll, h.nextId]
    exact hrest

/-- Growing both trees for the same object gives it the same layer. -/
lemma grow (h : Covers root handle ended t u) {c : Chain}
    (hlease : ∀ y ∈ c.links, y.lease = handle y.id)
    (hrunning : ∀ y ∈ (t.survey [] c.links).pending, y.lease.any ended = false) :
    Covers root handle ended (t.grow c).state (u.grow c).state ∧
      (u.grow c).result = (t.grow c).result := by
  have hsurvey : u.survey [] c.links = t.survey [] c.links :=
    h.survey_eq (by simpa using hlease) hrunning
  have hfound := surveyed t.bare_nil c.links
  have hfound' := surveyed u.bare_nil c.links
  rw [hsurvey] at hfound'
  obtain ⟨p, hp⟩ := h.pruned.anchor_exists c.links
  have hpending : ∀ y ∈ (t.survey [] c.links).pending, y.lease = handle y.id := by
    obtain ⟨passed, rest, hlinks, hpending, -⟩ := hfound.split
    intro y hy
    rw [hpending, List.append_nil, List.mem_reverse] at hy
    exact hlease y (hlinks ▸ List.mem_append_left _ hy)
  rw [LayerTree.grow, LayerTree.grow, hsurvey]
  exact h.graftAll hp hpending hfound.bare hfound'.bare

/-- The first tree may be pruned before both grow. -/
lemma ensure (h : Covers root handle ended t u) {c : Chain}
    (hlease : ∀ y ∈ c.links, y.lease = handle y.id)
    (hrunning : ∀ y ∈ ((t.tidy ended).survey [] c.links).pending, y.lease.any ended = false) :
    Covers root handle ended (t.ensure ended c).state (u.grow c).state ∧
      (u.grow c).result = (t.ensure ended c).result :=
  h.tidy.grow hlease hrunning

/-- The same change of entries in both trees. -/
lemma setEntries (h : Covers root handle ended t u) (i : LayerId) (e : Entries) :
    Covers root handle ended (t.setEntries i e) (u.setEntries i e) := by
  refine ⟨h.pruned.setEntries i e, h.whole.setEntries i e, h.nextId, ?_, ?_, ?_⟩
  · intro j m hm
    rw [layer?_setEntries] at hm ⊢
    obtain ⟨l, hl, rfl⟩ := Option.map_eq_some_iff.1 hm
    obtain ⟨n, hn⟩ := h.stays j l hl
    refine ⟨n, ?_⟩
    rw [hn, Option.map_some]
    split <;> rfl
  · intro j m hm hn
    rw [layer?_setEntries] at hm hn
    obtain ⟨l, hl, rfl⟩ := Option.map_eq_some_iff.1 hm
    have hended := h.gone j l hl (Option.map_eq_none_iff.1 hn)
    split <;> exact hended
  · intro j m hm hj
    rw [layer?_setEntries] at hm
    obtain ⟨l, hl, rfl⟩ := Option.map_eq_some_iff.1 hm
    have hlease := h.leases j l hl hj
    split <;> exact hlease

end Covers

end LayerTree

end Glossary
