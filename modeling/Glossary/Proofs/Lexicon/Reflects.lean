import Glossary.Lexicon.Substitute
import Glossary.Proofs.Layer.Graft
import Glossary.Proofs.Lexicon.Tables
import Glossary.Proofs.World.Delegation

/-!
# A tree of layers reflects tables

The layers of a tree are made at different times, when an object is first asked about, and layers
of dead objects are removed in between.  `Reflects` is what holds throughout: a layer lies on the
layer of what its owner delegates to, it shows the tables of its owner, and an object without a
layer has empty tables or is dead.

A walk along the chain of a living object therefore passes only objects with empty tables until it
comes to a layer, and from there falling back from layer to layer is following the chain.
-/

namespace Glossary

namespace World

/-- A dead thing has this identity. -/
def Gone (w : World) (o : ObjectId) : Prop :=
  ∃ r t, w.thing? r = some t ∧ t.id = o ∧ t.isDead = true

/-- The identity of what a thing delegates to; the root object if it delegates to nothing. -/
def upOf (w : World) (root : ObjectId) (t : Thing) : ObjectId :=
  match t.parent.bind w.thing? with
  | some u => u.id
  | none => root

variable {w v : World} {t : Thing} {r : Ref}

lemma Gone.later {o : ObjectId} (h : w.Gone o) (hlater : w.Later v) : v.Gone o := by
  obtain ⟨r, t, ht, hid, hdead⟩ := h
  obtain ⟨u, hu, hkept⟩ := hlater r t ht
  exact ⟨r, u, hu, hkept.id.trans hid, hkept.dead hdead⟩

lemma upOf_of_parent_eq_none (root : ObjectId) (hp : t.parent = none) : w.upOf root t = root := by
  rw [upOf, hp]
  rfl

lemma upOf_of_parent {p : Ref} {u : Thing} (root : ObjectId) (hp : t.parent = some p)
    (hu : w.thing? p = some u) : w.upOf root t = u.id := by
  rw [upOf, hp, Option.bind_some, hu]

lemma Later.upOf_eq (hlater : w.Later v) (hw : w.Formed) (ht : w.thing? r = some t) {u : Thing}
    (hkept : t.Kept u) (root : ObjectId) : v.upOf root u = w.upOf root t := by
  cases hp : t.parent with
  | none =>
    rw [upOf_of_parent_eq_none root hp, upOf_of_parent_eq_none root (hkept.parent.trans hp)]
  | some p =>
    obtain ⟨-, q, hq⟩ := hw.parent_exists ht hp
    obtain ⟨q', hq', hkept'⟩ := hlater p q hq
    rw [upOf_of_parent root hp hq, upOf_of_parent root (hkept.parent.trans hp) hq', hkept'.id]

end World

namespace LayerTree

variable {root : ObjectId} {w v : World} {T : Tables} {t : LayerTree} {i : LayerId} {l : Layer}
  {links : List Link} {r : Ref} {th : Thing}

/-- A layer was made for a thing, and lies on the layer of what the thing delegates to. -/
def Placed (t : LayerTree) (root : ObjectId) (w : World) (l : Layer) : Prop :=
  ∃ r th, w.thing? r = some th ∧ l.owner = th.id ∧ l.lease = (th.link r).lease ∧
    ∃ p m, l.parent = some p ∧ t.layer? p = some m ∧ m.owner = w.upOf root th

/-- The layers of a tree show the tables of the things of a world. -/
structure Reflects (root : ObjectId) (w : World) (T : Tables) (t : LayerTree) : Prop where
  /-- The tree is well formed. -/
  wellFormed : t.WellFormed root
  /-- Every layer but the root layer lies on the layer of what its owner delegates to. -/
  placed : ∀ i l, t.layer? i = some l → i ≠ .root → t.Placed root w l
  /-- A layer shows the tables of its owner. -/
  shown : ∀ i l, t.layer? i = some l → l.entries.Shows (T l.owner)
  /-- An object without a layer has empty tables, or is dead. -/
  blank : ∀ o, t.layerOf? o = none → w.Gone o ∨ ∀ language, T o language = []

lemma reflects_start (root : ObjectId) (w : World) : (start root).Reflects root w .empty where
  wellFormed := wellFormed_start root
  placed := by
    intro i l hl hi
    have hmem := mem_of_layer? hl
    obtain rfl := List.mem_singleton.1 hmem
    exact absurd (id_of_layer? hl).symm hi
  shown := by
    intro i l hl
    have hmem := mem_of_layer? hl
    obtain rfl := List.mem_singleton.1 hmem
    exact Entries.shows_empty fun _ => rfl
  blank := fun _ _ => Or.inr fun _ => rfl

namespace Reflects

/-! ## What changes under the tree -/

lemma later (h : t.Reflects root w T) (hw : w.Formed) (hlater : w.Later v) :
    t.Reflects root v T where
  wellFormed := h.wellFormed
  placed := by
    intro i l hl hi
    obtain ⟨r, th, hth, ho, hle, p, m, hp, hm, hup⟩ := h.placed i l hl hi
    obtain ⟨u, hu, hkept⟩ := hlater r th hth
    refine ⟨r, u, hu, ho.trans hkept.id.symm, ?_, p, m, hp, hm, ?_⟩
    · rw [hle, hkept.link_eq]
    · rw [hup, hlater.upOf_eq hw hth hkept]
  shown := h.shown
  blank := by
    intro o ho
    rcases h.blank o ho with hgone | hempty
    · exact Or.inl (hgone.later hlater)
    · exact Or.inr hempty

/-- A layer whose owner's lease has ended belongs to a dead thing. -/
lemma gone_of_isEnded (h : t.Reflects root w T) (hl : t.layer? i = some l) (hi : i ≠ .root)
    (hended : l.isEnded w.ended = true) : w.Gone l.owner := by
  obtain ⟨r, th, hth, ho, hle, -⟩ := h.placed i l hl hi
  rw [Layer.isEnded, hle] at hended
  obtain ⟨k, hk, hek⟩ := (Option.any_eq_true _ _).1 hended
  -- the lease of a thing has its number
  obtain ⟨b, -, rfl⟩ := Option.map_eq_some_iff.1 hk
  refine ⟨r, th, hth, ho.symm, ?_⟩
  simpa [World.ended, hth, Thing.isDead] using hek

lemma tidy (h : t.Reflects root w T) : (t.tidy w.ended).Reflects root w T := by
  have hthin := h.wellFormed.thinned_tidy w.ended
  have hwf := h.wellFormed.tidy w.ended
  refine ⟨hwf, ?_, ?_, ?_⟩
  · intro i m hm hi
    obtain ⟨l, n, hl, rfl⟩ := hthin.stays i m hm
    obtain ⟨r, th, hth, ho, hle, p, q, hp, hq, hup⟩ := h.placed i l hl hi
    -- a layer that another one falls back to is not removed
    obtain ⟨-, q', hq'⟩ := hwf.parent_exists hm hp
    refine ⟨r, th, hth, ho, hle, p, q', hp, hq', ?_⟩
    obtain ⟨q'', k, hq'', rfl⟩ := hthin.stays p q' hq'
    rw [hq] at hq''
    obtain rfl := Option.some.inj hq''
    exact hup
  · intro i m hm
    obtain ⟨l, n, hl, rfl⟩ := hthin.stays i m hm
    exact h.shown i l hl
  · intro o ho
    cases hi : t.layerOf? o with
    | none => exact h.blank o hi
    | some i =>
      -- the object has lost its layer just now
      obtain ⟨l, hl, rfl⟩ := h.wellFormed.layer?_of_layerOf? hi
      have hgone : (t.tidy w.ended).layer? i = none := by
        refine Option.eq_none_iff_forall_ne_some.2 fun m hm => ?_
        obtain ⟨l', n, hl', rfl⟩ := hthin.stays i m hm
        obtain rfl := Option.some.inj (hl.symm.trans hl')
        exact absurd ((hwf.layerOf?_owner hm).symm.trans ho) (by simp)
      have hroot : i ≠ .root := by
        rintro rfl
        obtain ⟨b, hb, -⟩ := hwf.layer?_root
        rw [hgone] at hb
        cases hb
      exact Or.inl (h.gone_of_isEnded hl hroot (hthin.gone i l hl hgone))

/-! ## How the tree grows -/

/-- A layer for a living thing, on the layer of what it delegates to. -/
lemma graft (h : t.Reflects root w T) (hr : w.thing? r = some th) (hliving : ¬ w.Gone th.id)
    {p : LayerId} {m : Layer} (hm : t.layer? p = some m) (hup : m.owner = w.upOf root th)
    (hth : t.layerOf? th.id = none) : (t.graft (th.link r) p).Reflects root w T := by
  have hempty : ∀ language, T th.id language = [] := by
    rcases h.blank th.id hth with hgone | hempty
    · exact absurd hgone hliving
    · exact hempty
  refine ⟨h.wellFormed.graft hm hth, ?_, ?_, ?_⟩
  · intro i l hl hi
    rcases layer?_of_layer?_graft hl with ⟨rfl, rfl⟩ | ⟨k, n, hk, rfl⟩
    · obtain ⟨n, hn⟩ := h.wellFormed.layer?_graft_of_layer? hm (th.link r) p
      exact ⟨r, th, hr, rfl, rfl, p, _, rfl, hn, hup⟩
    · obtain ⟨q, u, hu, ho, hle, p', m', hp', hm', hup'⟩ := h.placed i k hk hi
      obtain ⟨n', hn'⟩ := h.wellFormed.layer?_graft_of_layer? hm' (th.link r) p
      exact ⟨q, u, hu, ho, hle, p', _, hp', hn', hup'⟩
  · intro i l hl
    rcases layer?_of_layer?_graft hl with ⟨rfl, rfl⟩ | ⟨k, n, hk, rfl⟩
    · exact Entries.shows_empty hempty
    · exact h.shown i k hk
  · intro o ho
    rw [layerOf?_graft] at ho
    split at ho
    · cases ho
    · exact h.blank o ho

/-- Growing along the chain of a thing, after growing along the rest of it. -/
lemma growAlong_cons (h : t.Reflects root w T) (hr : w.thing? r = some th)
    (hnew : ∀ y ∈ links, th.id ≠ y.id) (hliving : th.id ≠ root → ¬ w.Gone th.id)
    (hrest : th.id ≠ root → (t.growAlong links).state.Reflects root w T ∧
      ∃ m, (t.growAlong links).state.layer? (t.growAlong links).result = some m ∧
        m.owner = w.upOf root th) :
    (t.growAlong (th.link r :: links)).state.Reflects root w T ∧
      ∃ m, (t.growAlong (th.link r :: links)).state.layer?
          (t.growAlong (th.link r :: links)).result = some m ∧ m.owner = th.id := by
  cases hx : t.layerOf? th.id with
  | some i =>
    rw [growAlong_of_owned (x := th.link r) hx]
    exact ⟨h, h.wellFormed.layer?_of_layerOf? hx⟩
  | none =>
    have hne := h.wellFormed.ne_root_of_layerOf? hx
    obtain ⟨hstate, hresult⟩ := growAlong_of_new (x := th.link r) hx hnew
    obtain ⟨hreflects, m, hm, hup⟩ := hrest hne
    have hx' : (t.growAlong links).state.layerOf? th.id = none := by
      rw [layerOf?_growAlong t fun y hy => Ne.symm (hnew y hy)]
      exact hx
    rw [hstate, hresult]
    refine ⟨hreflects.graft hr (hliving hne) hm hup hx', _, layer?_graft_self _ _ _, rfl⟩

/-- Growing along a chain whose objects are living, as far as the root object, leads to the layer
of its first object. -/
lemma growAlong (h : t.Reflects root w T) (hw : w.Formed) (hlinks : w.Leads r th links)
    (hliving : ∀ y ∈ Tables.before root links, ¬ w.Gone y.id) :
    (t.growAlong links).state.Reflects root w T ∧
      ∃ m, (t.growAlong links).state.layer? (t.growAlong links).result = some m ∧
        m.owner = th.id := by
  induction hlinks with
  | @last r th hr hp =>
    refine h.growAlong_cons hr (by simp) (fun hne => ?_) fun _ => ⟨h, ?_⟩
    · exact hliving (th.link r) (Tables.self_mem_before (x := th.link r) hne _)
    · obtain ⟨b, hb, ho, -⟩ := h.wellFormed.layer?_root
      exact ⟨b, hb, ho.trans (World.upOf_of_parent_eq_none root hp).symm⟩
  | @next r p th u links hr hp hlinks ih =>
    have hnew := (List.pairwise_cons.1 ((World.Leads.next hr hp hlinks).distinct hw)).1
    refine h.growAlong_cons hr hnew (fun hne => ?_) fun hne => ?_
    · exact hliving (th.link r) (Tables.self_mem_before (x := th.link r) hne _)
    · rw [World.upOf_of_parent root hp hlinks.thing?]
      exact ih fun y hy => hliving y (Tables.mem_before_cons hne hy)

lemma ensure (h : t.Reflects root w T) (hw : w.Formed) {c : Chain} (hc : w.Leads r th c.links)
    (hliving : ∀ y ∈ Tables.before root c.links, ¬ w.Gone y.id) :
    (t.ensure w.ended c).state.Reflects root w T ∧
      ∃ m, (t.ensure w.ended c).state.layer? (t.ensure w.ended c).result = some m ∧
        m.owner = th.id :=
  h.tidy.growAlong hw hc hliving

/-- New entries in one layer are new tables of its owner. -/
lemma setEntries (h : t.Reflects root w T) (hl : t.layer? i = some l) {e : Entries} {T' : Tables}
    (he : e.Shows (T' l.owner)) (hothers : ∀ o, o ≠ l.owner → T' o = T o) :
    (t.setEntries i e).Reflects root w T' where
  wellFormed := h.wellFormed.setEntries i e
  placed := by
    intro j m hm hj
    rw [layer?_setEntries] at hm
    obtain ⟨k, hk, rfl⟩ := Option.map_eq_some_iff.1 hm
    obtain ⟨r, th, hth, ho, hle, p, q, hp, hq, hup⟩ := h.placed j k hk hj
    have hq' : (t.setEntries i e).layer? p = some (if p = i then { q with entries := e } else q) := by
      rw [layer?_setEntries, hq, Option.map_some]
    refine ⟨r, th, hth, ?_, ?_, p, _, ?_, hq', ?_⟩
    · split <;> exact ho
    · split <;> exact hle
    · split <;> exact hp
    · split <;> exact hup
  shown := by
    intro j m hm
    rw [layer?_setEntries] at hm
    obtain ⟨k, hk, rfl⟩ := Option.map_eq_some_iff.1 hm
    split
    · next hji =>
      rw [hji, hl] at hk
      obtain rfl := Option.some.inj hk
      exact he
    · next hji =>
      -- another layer has another owner, whose tables are the same as before
      have hne : k.owner ≠ l.owner := by
        intro heq
        have hj := h.wellFormed.layerOf?_owner hk
        have hi := h.wellFormed.layerOf?_owner hl
        rw [heq, hi] at hj
        exact hji (Option.some.inj hj).symm
      rw [hothers k.owner hne]
      exact h.shown j k hk
  blank := by
    intro o ho
    rw [layerOf?_setEntries] at ho
    have hne : o ≠ l.owner := by
      rintro rfl
      rw [h.wellFormed.layerOf?_owner hl] at ho
      cases ho
    rw [hothers o hne]
    exact h.blank o ho

/-! ## How names are found -/

/-- In the root layer a key has what the name has in the table of the root object. -/
lemma resolve?_root (h : t.Reflects root w T) (d : Direction) (language name : String) :
    (t.resolve? .root ⟨d, language, name⟩).map (·.value) = T.get? root language d name := by
  obtain ⟨b, hb, ho, hp, -⟩ := h.wellFormed.layer?_root
  have hshows := h.shown .root b hb
  rw [ho] at hshows
  rw [← hshows.get?_eq]
  cases hv : b.entries.get? ⟨d, language, name⟩ with
  | some v => rw [h.wellFormed.resolve?_of_get? hb hv, Option.map_some]
  | none => rw [h.wellFormed.resolve?_of_get?_eq_none hb hv, hp, Option.bind_none, Option.map_none]

/-- From the layer of a thing other than the root object, a key has what the name has in the table
of the thing, or else what it has from the layer of what the thing delegates to. -/
lemma resolve?_of_owner (h : t.Reflects root w T) (hl : t.layer? i = some l) (hi : l.owner ≠ root)
    (hw : w.Formed) (hr : w.thing? r = some th) (ho : l.owner = th.id)
    (d : Direction) (language name : String) :
    ∃ p m, t.layer? p = some m ∧ m.owner = w.upOf root th ∧
      (t.resolve? i ⟨d, language, name⟩).map (·.value) =
        (T.get? th.id language d name).or ((t.resolve? p ⟨d, language, name⟩).map (·.value)) := by
  have hroot : i ≠ .root := by
    rintro rfl
    obtain ⟨b, hb, hbo, -⟩ := h.wellFormed.layer?_root
    obtain rfl := Option.some.inj (hb.symm.trans hl)
    exact hi hbo
  obtain ⟨q, u, hu, hou, -, p, m, hp, hm, hup⟩ := h.placed i l hl hroot
  -- the thing that the layer was made for is the given one, as it has the same identity
  have hqr := hw.unique q r u th hu hr (hou.symm.trans ho)
  rw [hqr, hr] at hu
  obtain rfl := Option.some.inj hu
  refine ⟨p, m, hm, hup, ?_⟩
  have hshows := h.shown i l hl
  rw [ho] at hshows
  rw [← hshows.get?_eq]
  cases hv : l.entries.get? ⟨d, language, name⟩ with
  | some v => rw [h.wellFormed.resolve?_of_get? hl hv, Option.map_some, Option.some_or]
  | none =>
    rw [h.wellFormed.resolve?_of_get?_eq_none hl hv, hp, Option.bind_some, Option.none_or]

/-- From the layer of a thing, falling back from layer to layer is following its chain. -/
lemma resolve?_eq (h : t.Reflects root w T) (hw : w.Formed) (hlinks : w.Leads r th links)
    (hl : t.layer? i = some l) (ho : l.owner = th.id) (d : Direction) (language name : String) :
    (t.resolve? i ⟨d, language, name⟩).map (·.value) =
      T.find? language root links d name := by
  induction hlinks generalizing i l with
  | @last r th hr hp =>
    by_cases hroot : th.id = root
    · obtain rfl := h.wellFormed.eq_root_of_owner hl (ho.trans hroot)
      rw [h.resolve?_root, Tables.find?_cons_of_eq (x := th.link r) hroot]
    · obtain ⟨p, m, hm, hup, hvalue⟩ :=
        h.resolve?_of_owner hl (ho ▸ hroot) hw hr ho d language name
      rw [World.upOf_of_parent_eq_none root hp] at hup
      obtain rfl := h.wellFormed.eq_root_of_owner hm hup
      rw [hvalue, h.resolve?_root, Tables.find?_cons_of_ne (x := th.link r) hroot,
        Tables.find?_nil, Thing.link_id]
  | @next r p th u links hr hp hlinks ih =>
    by_cases hroot : th.id = root
    · obtain rfl := h.wellFormed.eq_root_of_owner hl (ho.trans hroot)
      rw [h.resolve?_root, Tables.find?_cons_of_eq (x := th.link r) hroot]
    · obtain ⟨p, m, hm, hup, hvalue⟩ :=
        h.resolve?_of_owner hl (ho ▸ hroot) hw hr ho d language name
      rw [World.upOf_of_parent root hp hlinks.thing?] at hup
      rw [hvalue, ih hm hup, Tables.find?_cons_of_ne (x := th.link r) hroot, Thing.link_id]

/-- A table that is empty has nothing for any name. -/
lemma get?_of_blank (h : t.Reflects root w T) {o : ObjectId} (ho : t.layerOf? o = none)
    (hliving : ¬ w.Gone o) (d : Direction) (language name : String) :
    T.get? o language d name = none := by
  rcases h.blank o ho with hgone | hempty
  · exact absurd hgone hliving
  · cases d <;> simp [Tables.get?, hempty]

/-- The nearest layer along the chain of a thing, after that along the rest of the chain. -/
lemma resolve?_anchor_cons (h : t.Reflects root w T) (hw : w.Formed)
    (hlinks : w.Leads r th (th.link r :: links)) (hliving : th.id ≠ root → ¬ w.Gone th.id)
    {d : Direction} {language name : String}
    (hrest : th.id ≠ root → (t.resolve? (t.survey [] links).anchor ⟨d, language, name⟩).map
      (·.value) = T.find? language root links d name) :
    (t.resolve? (t.survey [] (th.link r :: links)).anchor ⟨d, language, name⟩).map (·.value) =
      T.find? language root (th.link r :: links) d name := by
  cases hx : t.layerOf? th.id with
  | some i =>
    obtain ⟨l, hl, ho⟩ := h.wellFormed.layer?_of_layerOf? hx
    rw [survey_of_owned (x := th.link r) hx]
    exact h.resolve?_eq hw hlinks hl ho d language name
  | none =>
    -- the walk passes the thing, and its table has nothing to give
    have hne := h.wellFormed.ne_root_of_layerOf? hx
    have hnone := h.get?_of_blank hx (hliving hne) d language name
    have hnew := (List.pairwise_cons.1 (hlinks.distinct hw)).1
    rw [survey_cons (x := th.link r) hx hnew, Tables.find?_cons_of_ne (x := th.link r) hne,
      Thing.link_id, hnone, Option.none_or]
    exact hrest hne

/-- The nearest layer along a chain whose objects are living, as far as the root object, has what
the tables along the chain have. -/
lemma resolve?_anchor (h : t.Reflects root w T) (hw : w.Formed) (hlinks : w.Leads r th links)
    (hliving : ∀ y ∈ Tables.before root links, ¬ w.Gone y.id)
    (d : Direction) (language name : String) :
    (t.resolve? (t.survey [] links).anchor ⟨d, language, name⟩).map (·.value) =
      T.find? language root links d name := by
  induction hlinks with
  | @last r th hr hp =>
    refine h.resolve?_anchor_cons hw (.last hr hp) (fun hne => ?_) fun _ => ?_
    · exact hliving (th.link r) (Tables.self_mem_before (x := th.link r) hne _)
    · rw [Tables.find?_nil]
      exact h.resolve?_root d language name
  | @next r p th u links hr hp hlinks ih =>
    refine h.resolve?_anchor_cons hw (.next hr hp hlinks) (fun hne => ?_) fun hne => ?_
    · exact hliving (th.link r) (Tables.self_mem_before (x := th.link r) hne _)
    · exact ih fun y hy => hliving y (Tables.mem_before_cons hne hy)

end Reflects

end LayerTree

/-! ## The operations of a lexicon -/

/-- A chain is that of a thing, and its objects are living, as far as the root object. -/
structure World.Walks (w : World) (root : ObjectId) (c : Chain) : Prop where
  /-- The world is formed. -/
  formed : w.Formed
  /-- The chain is that of a thing. -/
  leads : ∃ r th, w.Leads r th c.links
  /-- The objects before the root object are living. -/
  living : ∀ y ∈ Tables.before root c.links, ¬ w.Gone y.id

lemma World.Leads.self_eq {w : World} {r : Ref} {th : Thing} {c : Chain}
    (h : w.Leads r th c.links) : c.self = th.link r := by
  obtain ⟨self, above⟩ := c
  cases h with
  | last hr hp => rfl
  | next hr hp h => rfl

namespace Lexicon

variable {root : ObjectId} {w : World} {T : Tables} {x : Lexicon} {c : Chain}

lemma reflects_ensure (h : x.tree.Reflects root w T) (hc : w.Walks root c) :
    (x.tree.ensure w.ended c).state.Reflects root w T ∧
      ∃ m, (x.tree.ensure w.ended c).state.layer? (x.tree.ensure w.ended c).result = some m ∧
        m.owner = c.self.id := by
  obtain ⟨r, th, hleads⟩ := hc.leads
  obtain ⟨hstate, m, hm, ho⟩ := h.ensure hc.formed hleads hc.living
  exact ⟨hstate, m, hm, ho.trans (hleads.self_eq ▸ rfl)⟩

/-- Adding a pair adds it to the table of the object. -/
lemma reflects_add (h : x.tree.Reflects root w T) (hc : w.Walks root c)
    (language source target : String) :
    (x.add w.ended c language source target).state.tree.Reflects root w
      (T.add c.self.id (x.canonical language) source target) := by
  obtain ⟨hstate, m, hm, ho⟩ := reflects_ensure h hc
  have hshows := hstate.shown _ m hm
  rw [ho] at hshows
  simp only [add, addAt]
  refine hstate.setEntries hm ?_ fun o hne => Tables.set_of_ne (ho ▸ hne) _
  rw [ho, LayerTree.entriesOf_of_layer? hm]
  exact hshows.pair _ source target

/-- Removing a pair drops it from the table of the object, and gives what it had there. -/
lemma reflects_remove (h : x.tree.Reflects root w T) (hc : w.Walks root c)
    (language source : String) :
    (x.remove w.ended c language source).state.tree.Reflects root w
        (T.remove c.self.id (x.canonical language) source) ∧
      (x.remove w.ended c language source).result =
        T.get? c.self.id (x.canonical language) .forward source := by
  obtain ⟨hstate, m, hm, ho⟩ := reflects_ensure h hc
  have hshows := hstate.shown _ m hm
  rw [ho] at hshows
  rw [← hshows.get?_eq]
  simp only [remove, removeAt, LayerTree.entriesOf_of_layer? hm]
  cases hv : m.entries.get? (.forward (x.canonical language) source) with
  | none =>
    rw [Tables.remove_of_get?_eq_none ((hshows.get?_eq _ _ _).symm.trans hv)]
    exact ⟨hstate, rfl⟩
  | some target =>
    refine ⟨?_, rfl⟩
    refine hstate.setEntries hm ?_ fun o hne => Tables.set_of_ne (ho ▸ hne) _
    rw [ho]
    exact hshows.unpair hv

/-- A name stands for what it has in the tables along the chain. -/
lemma reflects_find (h : x.tree.Reflects root w T) (hc : w.Walks root c)
    (d : Direction) (language name : String) :
    (x.find w.ended d c language name).state.tree.Reflects root w T ∧
      (x.find w.ended d c language name).result =
        T.find? (x.canonical language) root c.links d name := by
  obtain ⟨r, th, hleads⟩ := hc.leads
  obtain ⟨hstate, m, hm, ho⟩ := h.ensure hc.formed hleads hc.living
  exact ⟨hstate, hstate.resolve?_eq hc.formed hleads hm ho d _ name⟩

/-- A name is substituted by what it has in the tables along the chain. -/
lemma reflects_substitute (h : x.tree.Reflects root w T) (hc : w.Walks root c)
    (d : Direction) (language name : String) :
    (x.substitute d (.carrier c) language name).1 =
      T.substitute (x.canonical language) root c.links d name := by
  obtain ⟨r, th, hleads⟩ := hc.leads
  have hvalue := h.resolve?_anchor hc.formed hleads hc.living d (x.canonical language) name
  rw [← LayerTree.nearest_eq_anchor] at hvalue
  rw [Tables.substitute, ← hvalue, substitute]
  cases x.tree.resolve? (x.tree.nearest c) ⟨d, x.canonical language, name⟩ <;> rfl

end Lexicon

end Glossary
