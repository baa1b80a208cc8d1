import Glossary.World.Things
import Mathlib.Tactic.Lemma

/-!
# Later worlds

Things come and die, but some of what is said about a thing is said for good: its identity, what
it delegates to, and its death.  `Later` says that one world keeps all this of another.  `Wanes` is
the special case in which no thing was made, so that everything said about all things of the one
world carries over to the other.

`Formed` collects what the things of a world say about each other, as long as nothing is told to
delegate to something else.
-/

namespace Glossary

namespace Thing

/-- Whether a thing is plain and has a name. -/
def isNamed (t : Thing) : Bool :=
  match t.nature with
  | .plain named _ _ => named
  | .hosted _ _ => false

/-- Whether a thing is plain and held by a hosted thing. -/
def isHeld (t : Thing) : Bool :=
  match t.nature with
  | .plain _ held _ => held
  | .hosted _ _ => false

/-- Whether the life of a thing is over. -/
def isDead (t : Thing) : Bool := t.alive? = some false

/-- Whether a thing is one of the heirs that the thing with a number counts. -/
def isHeirOf (t : Thing) (r : Ref) : Bool := t.isPlain && t.parent = some r && !t.isDead

/-- What a thing keeps, whatever happens to it. -/
structure Kept (t u : Thing) : Prop where
  /-- Its identity. -/
  id : u.id = t.id
  /-- What it delegates to. -/
  parent : u.parent = t.parent
  /-- Whether it is plain. -/
  plain : u.isPlain = t.isPlain
  /-- Whether its life can end. -/
  mortal : u.alive?.isSome = t.alive?.isSome
  /-- A thing that is held once is held for good. -/
  held : t.isHeld = true → u.isHeld = true
  /-- A dead thing stays dead. -/
  dead : t.isDead = true → u.isDead = true

lemma Kept.refl (t : Thing) : t.Kept t := ⟨rfl, rfl, rfl, rfl, fun h => h, fun h => h⟩

lemma Kept.trans {t u v : Thing} (h : t.Kept u) (h' : u.Kept v) : t.Kept v where
  id := h'.id.trans h.id
  parent := h'.parent.trans h.parent
  plain := h'.plain.trans h.plain
  mortal := h'.mortal.trans h.mortal
  held := fun ht => h'.held (h.held ht)
  dead := fun ht => h'.dead (h.dead ht)

@[simp] lemma link_id (t : Thing) (r : Ref) : (t.link r).id = t.id := rfl

lemma Kept.link_eq {t u : Thing} (h : t.Kept u) (r : Ref) : u.link r = t.link r := by
  have hm := h.mortal
  rw [link, link, h.id]
  cases ht : t.alive? <;> cases hu : u.alive? <;> simp [ht, hu] at hm ⊢

@[simp] lemma isDead_plain (id : ObjectId) (parent : Option Ref) (named held : Bool) (heirs : Nat) :
    isDead ⟨id, parent, .plain named held heirs⟩ = !(named || held || decide (0 < heirs)) := by
  cases heirs <;> simp [isDead, alive?]

lemma isPlain_of_isNamed {t : Thing} (h : t.isNamed = true) : t.isPlain = true := by
  obtain ⟨id, parent, nature⟩ := t
  cases nature with
  | plain named held heirs => rfl
  | hosted tenure carries => cases h

lemma isDead_of_isNamed {t : Thing} (h : t.isNamed = true) : t.isDead = false := by
  obtain ⟨id, parent, nature⟩ := t
  cases nature with
  | plain named held heirs =>
    simp only [isNamed] at h
    simp [isDead, alive?, h]
  | hosted tenure carries => cases h

lemma isDead_of_isHeld {t : Thing} (h : t.isHeld = true) : t.isDead = false := by
  obtain ⟨id, parent, nature⟩ := t
  cases nature with
  | plain named held heirs =>
    simp only [isHeld] at h
    simp [isDead, alive?, h]
  | hosted tenure carries => cases h

end Thing

namespace World

variable {w v : World} {r : Ref} {t : Thing} {f : Nature → Nature}

/-! ## Looking up things -/

lemma thing?_revise (w : World) (r : Ref) (f : Nature → Nature) (s : Ref) :
    (w.revise r f).thing? s =
      if r = s then (w.thing? s).map fun t => { t with nature := f t.nature } else w.thing? s := by
  simp only [thing?, revise, Array.getElem?_modify]

lemma thing?_revise_self (hr : w.thing? r = some t) (f : Nature → Nature) :
    (w.revise r f).thing? r = some { t with nature := f t.nature } := by
  rw [thing?_revise, if_pos rfl, hr, Option.map_some]

lemma thing?_revise_of_ne {s : Ref} (h : r ≠ s) (w : World) (f : Nature → Nature) :
    (w.revise r f).thing? s = w.thing? s := by
  rw [thing?_revise, if_neg h]

lemma size_revise (w : World) (r : Ref) (f : Nature → Nature) :
    (w.revise r f).things.size = w.things.size := by
  simp [revise]

lemma lt_size_of_thing? (h : w.thing? r = some t) : r < w.things.size :=
  (Array.getElem?_eq_some_iff.1 h).1

lemma thing?_of_lt_size (h : r < w.things.size) : ∃ t, w.thing? r = some t :=
  ⟨w.things[r], Array.getElem?_eq_getElem h⟩

/-- A thing that is added comes after all others. -/
lemma thing?_push (w : World) (t : Thing) (n : Nat) (s : Ref) :
    thing? ⟨w.things.push t, n⟩ s = if s = w.things.size then some t else w.thing? s := by
  simp only [thing?, Array.getElem?_push]

/-! ## Later worlds -/

/-- All things are still there, and keep what a thing keeps. -/
def Later (w v : World) : Prop :=
  ∀ r t, w.thing? r = some t → ∃ u, v.thing? r = some u ∧ t.Kept u

lemma Later.refl (w : World) : w.Later w := fun _ t ht => ⟨t, ht, .refl t⟩

lemma Later.trans {x : World} (h : w.Later v) (h' : v.Later x) : w.Later x := by
  intro r t ht
  obtain ⟨u, hu, hkept⟩ := h r t ht
  obtain ⟨u', hu', hkept'⟩ := h' r u hu
  exact ⟨u', hu', hkept.trans hkept'⟩

/-- A later world with the same things, in which no name was taken away but that of one thing. -/
structure Wanes (but : Option Ref) (w v : World) : Prop where
  /-- The things keep what a thing keeps. -/
  later : w.Later v
  /-- No thing was made. -/
  size : v.things.size = w.things.size
  /-- No identity was minted. -/
  minted : v.minted = w.minted
  /-- The other names are still there. -/
  named : ∀ s t u, some s ≠ but → w.thing? s = some t → v.thing? s = some u →
    t.isNamed = true → u.isNamed = true

lemma Wanes.refl (but : Option Ref) (w : World) : Wanes but w w where
  later := .refl w
  size := rfl
  minted := rfl
  named := by
    intro s t u _ ht hu hn
    rw [ht] at hu
    exact Option.some.inj hu ▸ hn

lemma Wanes.trans {but : Option Ref} {x : World} (h : Wanes but w v) (h' : Wanes none v x) :
    Wanes but w x where
  later := h.later.trans h'.later
  size := h'.size.trans h.size
  minted := h'.minted.trans h.minted
  named := by
    intro s t u hs ht hu hn
    obtain ⟨t', ht', -⟩ := h.later s t ht
    exact h'.named s t' u (by simp) ht' hu (h.named s t t' hs ht ht' hn)

/-- Every thing of the later world was there before. -/
lemma Wanes.back {but : Option Ref} (h : Wanes but w v) {u : Thing} (hu : v.thing? r = some u) :
    ∃ t, w.thing? r = some t ∧ t.Kept u := by
  obtain ⟨t, ht⟩ := thing?_of_lt_size (h.size ▸ lt_size_of_thing? hu)
  obtain ⟨u', hu', hkept⟩ := h.later r t ht
  rw [hu'] at hu
  exact ⟨t, ht, Option.some.inj hu ▸ hkept⟩

/-- Revising one thing in a way that keeps what a thing keeps. -/
lemma later_revise (h : ∀ t, w.thing? r = some t → t.Kept { t with nature := f t.nature }) :
    w.Later (w.revise r f) := by
  intro s t ht
  by_cases hs : r = s
  · subst hs
    exact ⟨_, thing?_revise_self ht f, h t ht⟩
  · exact ⟨t, by rw [thing?_revise_of_ne hs, ht], .refl t⟩

lemma wanes_revise {but : Option Ref}
    (h : ∀ t, w.thing? r = some t → t.Kept { t with nature := f t.nature })
    (hnamed : ∀ t, w.thing? r = some t → some r ≠ but → t.isNamed = true →
      ({ t with nature := f t.nature } : Thing).isNamed = true) :
    Wanes but w (w.revise r f) where
  later := later_revise h
  size := size_revise w r f
  minted := rfl
  named := by
    intro s t u hs ht hu hn
    by_cases hrs : r = s
    · subst hrs
      rw [thing?_revise_self ht] at hu
      exact Option.some.inj hu ▸ hnamed t ht hs hn
    · rw [thing?_revise_of_ne hrs, ht] at hu
      exact Option.some.inj hu ▸ hn

/-- Changing the nature of a living plain thing that keeps its name. -/
lemma wanes_revise_plain {but : Option Ref} {id : ObjectId} {parent : Option Ref}
    {named held named' : Bool} {heirs heirs' : Nat}
    (hr : w.thing? r = some ⟨id, parent, .plain named held heirs⟩)
    (hliving : (⟨id, parent, .plain named held heirs⟩ : Thing).isDead = false)
    (hnamed : some r ≠ but → named = true → named' = true) :
    Wanes but w (w.revise r fun _ => .plain named' held heirs') := by
  refine wanes_revise (fun u hu => ?_) (fun u hu hbut hn => ?_)
  · obtain rfl := Option.some.inj (hr.symm.trans hu)
    refine ⟨rfl, rfl, rfl, rfl, fun hheld => hheld, fun hdead => ?_⟩
    rw [hliving] at hdead
    cases hdead
  · obtain rfl := Option.some.inj (hr.symm.trans hu)
    exact hnamed hbut hn

/-! ## Identities and delegation -/

/-- What things say about each other never changes. -/
structure Formed (w : World) : Prop where
  /-- A thing delegates to an older one. -/
  older : ∀ r t, w.thing? r = some t → ∀ p, t.parent = some p → p < r
  /-- No two things have one identity. -/
  unique : ∀ r s t u, w.thing? r = some t → w.thing? s = some u → t.id = u.id → r = s
  /-- The minted identities are those of plain things, and below the next one. -/
  minted : ∀ r t n, w.thing? r = some t → t.id = .minted n → n < w.minted ∧ t.isPlain = true
  /-- A given identity is that of a hosted thing. -/
  given : ∀ r t raw, w.thing? r = some t → t.id = .given raw → t.isPlain = false
  /-- A plain thing delegates to a plain thing. -/
  plain : ∀ r t p u, w.thing? r = some t → t.isPlain = true → t.parent = some p →
    w.thing? p = some u → u.isPlain = true

lemma Formed.parent_exists (h : w.Formed) (ht : w.thing? r = some t) {p : Ref}
    (hp : t.parent = some p) : p < r ∧ ∃ u, w.thing? p = some u := by
  have hlt := h.older r t ht p hp
  exact ⟨hlt, thing?_of_lt_size (Nat.lt_trans hlt (lt_size_of_thing? ht))⟩

lemma Formed.wanes {but : Option Ref} (h : w.Formed) (hw : Wanes but w v) : v.Formed where
  older := by
    intro r u hu p hp
    obtain ⟨t, ht, hkept⟩ := hw.back hu
    exact h.older r t ht p (hkept.parent ▸ hp)
  unique := by
    intro r s u u' hu hu' hid
    obtain ⟨t, ht, hkept⟩ := hw.back hu
    obtain ⟨t', ht', hkept'⟩ := hw.back hu'
    exact h.unique r s t t' ht ht' (hkept.id.symm.trans (hid.trans hkept'.id))
  minted := by
    intro r u n hu hid
    obtain ⟨t, ht, hkept⟩ := hw.back hu
    rw [hw.minted, hkept.plain]
    exact h.minted r t n ht (hkept.id.symm.trans hid)
  given := by
    intro r u raw hu hid
    obtain ⟨t, ht, hkept⟩ := hw.back hu
    rw [hkept.plain]
    exact h.given r t raw ht (hkept.id.symm.trans hid)
  plain := by
    intro r u p q hu hplain hp hq
    obtain ⟨t, ht, hkept⟩ := hw.back hu
    obtain ⟨t', ht', hkept'⟩ := hw.back hq
    rw [hkept'.plain]
    exact h.plain r t p t' ht (hkept.plain ▸ hplain) (hkept.parent ▸ hp) ht'

end World

end Glossary
