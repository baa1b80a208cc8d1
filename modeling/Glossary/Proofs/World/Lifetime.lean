import Glossary.Proofs.World.Later

/-!
# How long things live

A plain thing counts its heirs, the living plain things that delegate to it, and dies when the
count comes down to zero and nothing else refers to it.  Its death may then be the death of what
it delegates to, and so on: that is the cascade of `loseHeir`.  `Sound` says that the counts are
right.  While a cascade runs one count is too high by one, which is the argument of `Counted`, and
each step of the cascade passes this debt on to the parent.

So whatever a living plain thing delegates to is living, and so is every plain thing that a hosted
thing delegates to.
-/

namespace Glossary

namespace World

variable {w v : World} {r : Ref} {t : Thing} {f : Nature → Nature}

/-! ## Counting heirs -/

/-- The number of living plain things that delegate to the thing with a number. -/
def heirsOf (w : World) (r : Ref) : Nat := w.things.countP (·.isHeirOf r)

/-- Every plain thing counts its heirs, but the count of the thing `debtor` is too high by one. -/
def Counted (w : World) (debtor : Option Ref) : Prop :=
  ∀ r t named held heirs, w.thing? r = some t → t.nature = .plain named held heirs →
    heirs = w.heirsOf r + if debtor = some r then 1 else 0

lemma heirsOf_revise (hr : w.thing? r = some t) (f : Nature → Nature) (q : Ref) :
    (w.revise r f).heirsOf q + (if t.isHeirOf q then 1 else 0) =
      w.heirsOf q + if ({ t with nature := f t.nature } : Thing).isHeirOf q then 1 else 0 := by
  obtain ⟨hlt, ht⟩ := Array.getElem?_eq_some_iff.1 hr
  -- revising a thing replaces it in its place
  have hset : w.things.modify r (fun t => { t with nature := f t.nature }) =
      w.things.set r { t with nature := f t.nature } hlt := by
    refine Array.ext_getElem? fun s => ?_
    rw [Array.getElem?_modify, Array.getElem?_set]
    by_cases hs : r = s
    · subst hs
      rw [if_pos rfl, if_pos rfl, Array.getElem?_eq_getElem hlt, ht, Option.map_some]
    · rw [if_neg hs, if_neg hs]
  have hle : (if t.isHeirOf q then 1 else 0) ≤ w.things.countP (·.isHeirOf q) := by
    split
    · next hheir =>
      refine Array.countP_pos_iff.2 ⟨t, ?_, hheir⟩
      exact ht ▸ Array.getElem_mem hlt
    · exact Nat.zero_le _
  rw [heirsOf, heirsOf, revise, hset, Array.countP_set, ht]
  omega

/-- Revising one thing, when the counts of the others agree with the new debtor. -/
lemma Counted.revise {debtor debtor' : Option Ref} (h : w.Counted debtor)
    (hr : w.thing? r = some t)
    (hothers : ∀ q, q ≠ r → (w.revise r f).heirsOf q + (if debtor' = some q then 1 else 0) =
      w.heirsOf q + if debtor = some q then 1 else 0)
    (hself : ∀ named held heirs, f t.nature = .plain named held heirs →
      heirs = (w.revise r f).heirsOf r + if debtor' = some r then 1 else 0) :
    (w.revise r f).Counted debtor' := by
  intro q u named held heirs hu hnature
  by_cases hq : r = q
  · subst hq
    rw [thing?_revise_self hr] at hu
    obtain rfl := Option.some.inj hu
    exact hself named held heirs hnature
  · rw [thing?_revise_of_ne hq] at hu
    rw [hothers q (Ne.symm hq)]
    exact h q u named held heirs hu hnature

/-- As long as a thing stays the heir that it was, all have the heirs that they had. -/
lemma heirsOf_revise_of_isHeirOf_eq (hr : w.thing? r = some t)
    (hheir : ∀ q, ({ t with nature := f t.nature } : Thing).isHeirOf q = t.isHeirOf q) (q : Ref) :
    (w.revise r f).heirsOf q = w.heirsOf q := by
  have hheirs := heirsOf_revise hr f q
  rw [hheir q] at hheirs
  exact Nat.add_right_cancel hheirs

/-- A plain thing that dies is one heir less for what it delegates to. -/
lemma heirsOf_revise_of_dies (hr : w.thing? r = some t) (hplain : t.isPlain = true)
    (hliving : t.isDead = false) (hdies : ({ t with nature := f t.nature } : Thing).isDead = true)
    (q : Ref) :
    (w.revise r f).heirsOf q + (if t.parent = some q then 1 else 0) = w.heirsOf q := by
  have hheirs := heirsOf_revise hr f q
  have hafter : ({ t with nature := f t.nature } : Thing).isHeirOf q = false := by
    simp [Thing.isHeirOf, hdies]
  have hbefore : t.isHeirOf q = decide (t.parent = some q) := by
    simp [Thing.isHeirOf, hplain, hliving]
  rw [hafter, hbefore] at hheirs
  simpa using hheirs

/-- Revising a thing in a way that leaves it the heir that it was, and leaves it its count. -/
lemma Counted.revise_same {debtor : Option Ref} (h : w.Counted debtor) (hr : w.thing? r = some t)
    (hheir : ∀ q, ({ t with nature := f t.nature } : Thing).isHeirOf q = t.isHeirOf q)
    (hcount : ∀ named held heirs, f t.nature = .plain named held heirs →
      ∃ named' held', t.nature = .plain named' held' heirs) :
    (w.revise r f).Counted debtor := by
  have hsame := heirsOf_revise_of_isHeirOf_eq hr hheir
  refine h.revise hr (fun q _ => by rw [hsame]) (fun named held heirs hnature => ?_)
  obtain ⟨named', held', ht⟩ := hcount named held heirs hnature
  rw [hsame]
  exact h r t named' held' heirs hr ht

/-- Revising a living plain thing so that its count is right.  If it dies of that, the debt goes to
what it delegates to. -/
lemma Counted.revise_plain {debtor : Option Ref} {named held : Bool} (h : w.Counted debtor)
    (hdebtor : ∀ q, q ≠ r → debtor ≠ some q) (hr : w.thing? r = some t) (hplain : t.isPlain = true)
    (hliving : t.isDead = false) (hf : f t.nature = .plain named held (w.heirsOf r)) :
    (w.revise r f).Counted
      (if ({ t with nature := f t.nature } : Thing).isDead then t.parent else none) := by
  have hplain' : ({ t with nature := f t.nature } : Thing).isPlain = t.isPlain := by
    rw [hplain, hf]
    rfl
  have hself : ∀ n h k, f t.nature = .plain n h k → k = w.heirsOf r := by
    intro n h k hk
    exact (Nature.plain.inj (hf.symm.trans hk)).2.2.symm
  cases hdead : ({ t with nature := f t.nature } : Thing).isDead with
  | false =>
    have hsame : ∀ q, (w.revise r f).heirsOf q = w.heirsOf q :=
      heirsOf_revise_of_isHeirOf_eq hr fun q => by
        rw [Thing.isHeirOf, Thing.isHeirOf, hplain', hdead, hliving]
    refine h.revise hr (fun q hq => ?_) (fun n h k hk => ?_)
    · simp [hsame, hdebtor q hq]
    · simp [hsame, hself n h k hk]
  | true =>
    have hless := heirsOf_revise_of_dies hr hplain hliving hdead
    refine h.revise hr (fun q hq => ?_) (fun n h k hk => ?_)
    · simp [hless, hdebtor q hq]
    · simp [hless, hself n h k hk]

/-- A plain thing that loses an heir, as its debt requires, and the cascade that may follow. -/
lemma loseHeir_spec (hw : w.Formed) (hcounted : w.Counted (some r)) (hr : w.thing? r = some t)
    (hplain : t.isPlain = true) :
    Wanes none w (w.loseHeir r) ∧ (w.loseHeir r).Counted none := by
  -- the cascade goes from a thing to an older one, so the induction is on its number
  induction r using Nat.strongRecOn generalizing w t with
  | ind r ih =>
    obtain ⟨id, parent, nature⟩ := t
    cases nature with
    | hosted tenure carries => cases hplain
    | plain named held heirs =>
      have hheirs : heirs = w.heirsOf r + 1 := by
        simpa using hcounted r _ named held heirs hr rfl
      have hliving : (⟨id, parent, .plain named held heirs⟩ : Thing).isDead = false := by
        simp [hheirs]
      have hwanes : Wanes none w (w.revise r fun _ => .plain named held (heirs - 1)) :=
        wanes_revise_plain hr hliving fun _ hn => hn
      have hdebt := hcounted.revise_plain (f := fun _ => .plain named held (heirs - 1))
        (fun q hq => by simpa using hq.symm) hr hplain hliving (by rw [hheirs, Nat.add_sub_cancel])
      have hdead : (⟨id, parent, .plain named held (heirs - 1)⟩ : Thing).isDead =
          !(named || held || decide (1 < heirs)) := by
        rw [Thing.isDead_plain]
        simp only [Nat.sub_pos_iff_lt]
      rw [hdead] at hdebt
      rw [loseHeir, hr]
      simp only
      split
      · next hlives =>
        rw [hlives] at hdebt
        exact ⟨hwanes, hdebt⟩
      · next hdies =>
        rw [Bool.not_eq_true] at hdies
        rw [hdies] at hdebt
        cases parent with
        | none => exact ⟨hwanes, hdebt⟩
        | some p =>
          obtain ⟨hlt, u, hu⟩ := hw.parent_exists hr rfl
          obtain ⟨u', hu', hkept⟩ := hwanes.later p u hu
          have hplain' := hkept.plain.trans (hw.plain r _ p u hr hplain rfl hu)
          obtain ⟨hwanes', hcounted'⟩ := ih p hlt (hw.wanes hwanes) hdebt hu' hplain'
          simp only [if_pos hlt]
          exact ⟨hwanes.trans hwanes', hcounted'⟩

/-! ## Sound worlds -/

/-- Every plain thing that a hosted thing delegates to is held. -/
def ParentsHeld (w : World) : Prop :=
  ∀ r t p u, w.thing? r = some t → t.isPlain = false → t.parent = some p → w.thing? p = some u →
    u.isPlain = true → u.isHeld = true

lemma ParentsHeld.wanes {but : Option Ref} (h : w.ParentsHeld) (hw : Wanes but w v) :
    v.ParentsHeld := by
  intro r u p q hu hplain hp hq hqp
  obtain ⟨t, ht, hkept⟩ := hw.back hu
  obtain ⟨t', ht', hkept'⟩ := hw.back hq
  exact hkept'.held (h r t p t' ht (hkept.plain ▸ hplain) (hkept.parent ▸ hp) ht'
    (hkept'.plain ▸ hqp))

/-- Counts are right, and what a hosted thing delegates to is held. -/
structure Sound (w : World) : Prop where
  /-- What things say about each other never changes. -/
  formed : w.Formed
  /-- Every plain thing counts its heirs. -/
  counted : w.Counted none
  /-- Every plain thing that a hosted thing delegates to is held. -/
  held : w.ParentsHeld

lemma Sound.wanes {but : Option Ref} (h : w.Sound) (hw : Wanes but w v) (hc : v.Counted none) :
    v.Sound :=
  ⟨h.formed.wanes hw, hc, h.held.wanes hw⟩

lemma sound_empty : empty.Sound where
  formed := by constructor <;> simp [empty, thing?]
  counted := by simp [Counted, empty, thing?]
  held := by simp [ParentsHeld, empty, thing?]

/-- What a living plain thing delegates to is living. -/
lemma Sound.parent_living (h : w.Sound) (hr : w.thing? r = some t) (hplain : t.isPlain = true)
    (hliving : t.isDead = false) {p : Ref} {u : Thing} (hp : t.parent = some p)
    (hu : w.thing? p = some u) : u.isDead = false := by
  have hup := h.formed.plain r t p u hr hplain hp hu
  -- the living thing is one of the heirs that are counted
  have hpos : 0 < w.heirsOf p := by
    obtain ⟨hlt, ht⟩ := Array.getElem?_eq_some_iff.1 hr
    refine Array.countP_pos_iff.2 ⟨t, ht ▸ Array.getElem_mem hlt, ?_⟩
    simp [Thing.isHeirOf, hplain, hp, hliving]
  obtain ⟨id, parent, nature⟩ := u
  cases nature with
  | hosted tenure carries => cases hup
  | plain named held heirs =>
    have hheirs : heirs = w.heirsOf p := by simpa using h.counted p _ named held heirs hu rfl
    simp [hheirs, hpos]

/-- A plain thing is living if a hosted thing, or a living plain thing, delegates to it. -/
lemma Sound.up_living (h : w.Sound) (hr : w.thing? r = some t)
    (hliving : t.isPlain = true → t.isDead = false) {p : Ref} {u : Thing} (hp : t.parent = some p)
    (hu : w.thing? p = some u) (hup : u.isPlain = true) : u.isDead = false := by
  cases hplain : t.isPlain with
  | true => exact h.parent_living hr hplain (hliving hplain) hp hu
  | false => exact Thing.isDead_of_isHeld (h.held r t p u hr hplain hp hu hup)

/-- Taking away a name. -/
lemma Sound.unname (h : w.Sound) (r : Ref) :
    Wanes (some r) w (w.unname r) ∧ (w.unname r).Sound := by
  have hsame : Wanes (some r) w w ∧ w.Sound := ⟨.refl _ w, h⟩
  rw [World.unname]
  split
  · next id parent held heirs hr =>
    have hheirs : heirs = w.heirsOf r := by simpa using h.counted r _ true held heirs hr rfl
    -- the count was right before and does not change, but the thing may die all the same
    have hliving : (⟨id, parent, .plain true held heirs⟩ : Thing).isDead = false := by simp
    have hwanes : Wanes (some r) w (w.revise r fun _ => .plain false held heirs) :=
      wanes_revise_plain hr hliving fun hne => absurd rfl hne
    have hdebt := h.counted.revise_plain (f := fun _ => .plain false held heirs)
      (fun q _ => by simp) hr rfl hliving (by rw [hheirs])
    rw [Thing.isDead_plain, Bool.false_or] at hdebt
    simp only
    split
    · next hlives =>
      rw [hlives] at hdebt
      exact ⟨hwanes, h.wanes hwanes hdebt⟩
    · next hdies =>
      rw [Bool.not_eq_true] at hdies
      rw [hdies] at hdebt
      cases parent with
      | none => exact ⟨hwanes, h.wanes hwanes hdebt⟩
      | some p =>
        obtain ⟨-, u, hu⟩ := h.formed.parent_exists hr rfl
        obtain ⟨u', hu', hkept⟩ := hwanes.later p u hu
        have hplain' := hkept.plain.trans (h.formed.plain r _ p u hr rfl rfl hu)
        obtain ⟨hwanes', hcounted'⟩ :=
          loseHeir_spec (h.formed.wanes hwanes) hdebt hu' hplain'
        exact ⟨hwanes.trans hwanes', h.wanes (hwanes.trans hwanes') hcounted'⟩
  · exact hsame

/-- Ending the lease of a hosted thing. -/
lemma Sound.endLease (h : w.Sound) (hr : w.thing? r = some t) :
    Wanes none w (w.endLease r) ∧ (w.endLease r).Sound := by
  obtain ⟨id, parent, nature⟩ := t
  have hwanes : Wanes none w (w.endLease r) := by
    refine wanes_revise (fun u hu => ?_) (fun u hu _ hn => ?_)
    · obtain rfl := Option.some.inj (hr.symm.trans hu)
      rcases nature with _ | ⟨_ | _ | _, _⟩
      · exact .refl _
      · exact .refl _
      · exact ⟨rfl, rfl, rfl, rfl, fun hheld => hheld, fun _ => rfl⟩
      · exact .refl _
    · obtain rfl := Option.some.inj (hr.symm.trans hu)
      rcases nature with _ | ⟨_ | _ | _, _⟩
      · exact hn
      all_goals cases hn
  refine ⟨hwanes, h.wanes hwanes (h.counted.revise_same hr (fun q => ?_) ?_)⟩
  · rcases nature with _ | ⟨_ | _ | _, _⟩ <;> rfl
  · intro named held heirs hnature
    rcases nature with _ | ⟨_ | _ | _, _⟩
    · exact ⟨_, _, hnature⟩
    all_goals cases hnature

/-! ## New things -/

lemma later_push (w : World) (t : Thing) (n : Nat) : w.Later ⟨w.things.push t, n⟩ := by
  intro r u hu
  refine ⟨u, ?_, .refl u⟩
  rw [thing?_push, if_neg (Nat.ne_of_lt (lt_size_of_thing? hu)), hu]

lemma heirsOf_push (w : World) (t : Thing) (n : Nat) (q : Ref) :
    heirsOf ⟨w.things.push t, n⟩ q = w.heirsOf q + if t.isHeirOf q then 1 else 0 := by
  rw [heirsOf, heirsOf, Array.countP_push]

/-- Nothing delegates to a thing that is not there. -/
lemma Formed.heirsOf_eq_zero (h : w.Formed) (hr : w.things.size ≤ r) : w.heirsOf r = 0 := by
  refine Array.countP_eq_zero.2 fun t ht hheir => ?_
  obtain ⟨s, hs, rfl⟩ := Array.getElem_of_mem ht
  simp only [Thing.isHeirOf, Bool.and_eq_true, decide_eq_true_eq] at hheir
  have hlt := h.older s _ (Array.getElem?_eq_getElem hs) r hheir.1.2
  exact Nat.lt_irrefl _ (Nat.lt_of_le_of_lt hr (Nat.lt_trans hlt hs))

lemma Formed.push (h : w.Formed) {n : Nat} (hn : w.minted ≤ n)
    (hparent : ∀ p, t.parent = some p → p < w.things.size)
    (hnew : ∀ s u, w.thing? s = some u → u.id ≠ t.id)
    (hminted : ∀ k, t.id = .minted k → k < n ∧ t.isPlain = true)
    (hgiven : ∀ raw, t.id = .given raw → t.isPlain = false)
    (hplain : ∀ p u, t.isPlain = true → t.parent = some p → w.thing? p = some u →
      u.isPlain = true) : Formed ⟨w.things.push t, n⟩ where
  older := by
    intro r u hu p hp
    rw [thing?_push] at hu
    split at hu
    · next hr =>
      obtain rfl := Option.some.inj hu
      exact hr ▸ hparent p hp
    · exact h.older r u hu p hp
  unique := by
    intro r s u v hu hv hid
    rw [thing?_push] at hu hv
    split at hu
    · next hr =>
      obtain rfl := Option.some.inj hu
      split at hv
      · next hs => exact hr.trans hs.symm
      · exact absurd hid.symm (hnew s v hv)
    · split at hv
      · obtain rfl := Option.some.inj hv
        exact absurd hid (hnew r u hu)
      · exact h.unique r s u v hu hv hid
  minted := by
    intro r u k hu hid
    rw [thing?_push] at hu
    split at hu
    · obtain rfl := Option.some.inj hu
      exact hminted k hid
    · obtain ⟨hlt, hup⟩ := h.minted r u k hu hid
      exact ⟨Nat.lt_of_lt_of_le hlt hn, hup⟩
  given := by
    intro r u raw hu hid
    rw [thing?_push] at hu
    split at hu
    · obtain rfl := Option.some.inj hu
      exact hgiven raw hid
    · exact h.given r u raw hu hid
  plain := by
    intro r u p q hu hup hp hq
    have hq' : p < w.things.size → w.thing? p = some q := by
      intro hlt
      rwa [thing?_push, if_neg (Nat.ne_of_lt hlt)] at hq
    rw [thing?_push] at hu
    split at hu
    · obtain rfl := Option.some.inj hu
      exact hplain p q hup hp (hq' (hparent p hp))
    · have hlt := Nat.lt_trans (h.older r u hu p hp) (lt_size_of_thing? hu)
      exact h.plain r u p q hu hup hp (hq' hlt)

/-- A new thing pays the debt of what it delegates to, if it is an heir of that. -/
lemma Counted.push {debtor : Option Ref} {n : Nat} (h : w.Counted debtor) (hw : w.Formed)
    (hheir : ∀ q, t.isHeirOf q = decide (debtor = some q))
    (hself : ∀ named held heirs, t.nature = .plain named held heirs → heirs = 0)
    (hdebtor : ∀ q, debtor = some q → q < w.things.size) :
    Counted ⟨w.things.push t, n⟩ none := by
  intro q u named held heirs hu hnature
  rw [heirsOf_push, hheir q]
  rw [thing?_push] at hu
  split at hu
  · next hq =>
    obtain rfl := Option.some.inj hu
    have hno : ¬ debtor = some q := fun hd => Nat.lt_irrefl _ (hq ▸ hdebtor q hd)
    rw [hself named held heirs hnature, hw.heirsOf_eq_zero (Nat.le_of_eq hq.symm)]
    simp [hno]
  · rw [h q u named held heirs hu hnature]
    simp

lemma ParentsHeld.push {n : Nat} (h : w.ParentsHeld) (hw : w.Formed)
    (hparent : ∀ p, t.parent = some p → p < w.things.size)
    (hnew : ∀ p u, t.isPlain = false → t.parent = some p → w.thing? p = some u →
      u.isPlain = true → u.isHeld = true) : ParentsHeld ⟨w.things.push t, n⟩ := by
  intro r u p q hu hup hp hq hqp
  have hq' : p < w.things.size → w.thing? p = some q := by
    intro hlt
    rwa [thing?_push, if_neg (Nat.ne_of_lt hlt)] at hq
  rw [thing?_push] at hu
  split at hu
  · obtain rfl := Option.some.inj hu
    exact hnew p q hup hp (hq' (hparent p hp)) hqp
  · have hlt := Nat.lt_trans (hw.older r u hu p hp) (lt_size_of_thing? hu)
    exact h r u p q hu hup hp (hq' hlt) hqp

/-- One thing was made, and no name was taken away. -/
structure Gains (w : World) (t : Thing) (v : World) : Prop where
  /-- The other things keep what a thing keeps. -/
  later : w.Later v
  /-- The new world is sound. -/
  sound : v.Sound
  /-- The names are still there. -/
  named : ∀ s t u, w.thing? s = some t → v.thing? s = some u → t.isNamed = true → u.isNamed = true
  /-- The new thing comes after the others. -/
  new : v.thing? w.things.size = some t
  /-- No other thing was made. -/
  back : ∀ s u, v.thing? s = some u → u = t ∨ ∃ t', w.thing? s = some t' ∧ t'.Kept u

lemma Wanes.gains {x : World} {n : Nat} (h : Wanes none w x)
    (hsound : Sound ⟨x.things.push t, n⟩) : Gains w t ⟨x.things.push t, n⟩ where
  later := h.later.trans (later_push x t n)
  sound := hsound
  named := by
    intro s u v hu hv hn
    have hs : s < x.things.size := h.size ▸ lt_size_of_thing? hu
    rw [thing?_push, if_neg (Nat.ne_of_lt hs)] at hv
    exact h.named s u v (by simp) hu hv hn
  new := by rw [thing?_push, if_pos h.size.symm]
  back := by
    intro s u hu
    rw [thing?_push] at hu
    split at hu
    · exact Or.inl (Option.some.inj hu).symm
    · exact Or.inr (h.back hu)

/-- A named plain thing counts an heir that is still to be made. -/
lemma Sound.expectHeir (h : w.Sound) {u : Thing} (hu : w.thing? r = some u)
    (hnamed : u.isNamed = true)
    (hf : ∀ named held heirs, f (.plain named held heirs) = .plain named held (heirs + 1)) :
    Wanes none w (w.revise r f) ∧ (w.revise r f).Counted (some r) := by
  obtain ⟨id, up, nature⟩ := u
  cases nature with
  | hosted tenure carries => cases hnamed
  | plain named held heirs =>
    have hliving := Thing.isDead_of_isNamed hnamed
    have hheirs : heirs = w.heirsOf r := by simpa using h.counted r _ named held heirs hu rfl
    have hheir : ∀ q, (⟨id, up, f (.plain named held heirs)⟩ : Thing).isHeirOf q =
        (⟨id, up, .plain named held heirs⟩ : Thing).isHeirOf q := by
      intro q
      simp only [Thing.isNamed] at hnamed
      simp [hf, Thing.isHeirOf, Thing.isPlain, hnamed]
    have hsame := heirsOf_revise_of_isHeirOf_eq hu hheir
    constructor
    · refine wanes_revise (fun t ht => ?_) (fun t ht _ hn => ?_)
      · obtain rfl := Option.some.inj (hu.symm.trans ht)
        simp only [hf]
        refine ⟨rfl, rfl, rfl, rfl, fun hheld => hheld, fun hdead => ?_⟩
        rw [hliving] at hdead
        cases hdead
      · obtain rfl := Option.some.inj (hu.symm.trans ht)
        simp only [hf]
        exact hn
    · refine h.counted.revise hu (fun q hq => ?_) (fun n hd k hk => ?_)
      · simp [hsame, Ne.symm hq]
      · rw [hf] at hk
        obtain ⟨-, -, rfl⟩ := Nature.plain.inj hk
        simp [hsame, hheirs]

/-- Making a plain thing that delegates to a named plain thing, or to nothing. -/
lemma Sound.makePlain (h : w.Sound) {parent : Option Ref}
    (hparent : ∀ p, parent = some p → ∃ u, w.thing? p = some u ∧ u.isNamed = true) :
    Gains w ⟨.minted w.minted, parent, .plain true false 0⟩ (w.makePlain parent) := by
  obtain ⟨x, hx, hmake, hdebt⟩ : ∃ x, Wanes none w x ∧ w.makePlain parent =
      ⟨x.things.push ⟨.minted w.minted, parent, .plain true false 0⟩, w.minted + 1⟩ ∧
      x.Counted parent := by
    cases parent with
    | none => exact ⟨w, .refl _ w, rfl, h.counted⟩
    | some p =>
      obtain ⟨u, hu, hnamed⟩ := hparent p rfl
      refine ⟨_, ?_, rfl, ?_⟩
      · exact (h.expectHeir hu hnamed fun _ _ _ => rfl).1
      · exact (h.expectHeir hu hnamed fun _ _ _ => rfl).2
  -- in `x` the new heir is counted but not there, and making it pays that debt
  have hlt : ∀ p, parent = some p → p < x.things.size := by
    intro p hp
    obtain ⟨u, hu, -⟩ := hparent p hp
    exact hx.size ▸ lt_size_of_thing? hu
  have hxf := h.formed.wanes hx
  rw [hmake]
  refine hx.gains ⟨hxf.push ?_ hlt ?_ ?_ ?_ ?_, hdebt.push hxf ?_ ?_ hlt,
    (h.held.wanes hx).push hxf hlt ?_⟩
  · exact hx.minted ▸ Nat.le_succ _
  · intro s u hu hid
    exact Nat.lt_irrefl _ (hx.minted ▸ (hxf.minted s u _ hu hid).1)
  · intro k hk
    obtain rfl := ObjectId.minted.inj hk
    exact ⟨Nat.lt_succ_self _, rfl⟩
  · intro raw hid
    cases hid
  · intro p u _ hp hu
    obtain ⟨t, ht, hnamed⟩ := hparent p hp
    exact Thing.isPlain_of_isNamed (hx.named p t u (by simp) ht hu hnamed)
  · intro q
    simp [Thing.isHeirOf, Thing.isPlain]
  · intro named held heirs hnature
    exact (Nature.plain.inj hnature).2.2.symm
  · intro p u hhosted
    cases hhosted

/-- Holding what is not dead. -/
lemma Sound.hold (h : w.Sound) {parent : Option Ref}
    (hparent : ∀ p, parent = some p → ∃ u, w.thing? p = some u ∧
      (u.isPlain = true → u.isNamed = true)) :
    Wanes none w (w.hold parent) ∧ (w.hold parent).Sound ∧
      ∀ p u, parent = some p → (w.hold parent).thing? p = some u → u.isPlain = true →
        u.isHeld = true := by
  cases parent with
  | none => exact ⟨.refl _ w, h, fun p u hp => by cases hp⟩
  | some p =>
    obtain ⟨⟨id, up, nature⟩, hu, hnamed⟩ := hparent p rfl
    have hwanes : Wanes none w (w.hold (some p)) := by
      rw [World.hold]
      refine wanes_revise (fun t ht => ?_) (fun t ht _ hn => ?_)
      · obtain rfl := Option.some.inj (hu.symm.trans ht)
        cases nature with
        | hosted tenure carries => exact .refl _
        | plain named held heirs =>
          refine ⟨rfl, rfl, rfl, rfl, fun _ => rfl, fun hdead => ?_⟩
          rw [Thing.isDead_of_isNamed (hnamed rfl)] at hdead
          cases hdead
      · obtain rfl := Option.some.inj (hu.symm.trans ht)
        cases nature with
        | hosted tenure carries => exact hn
        | plain named held heirs => exact hn
    refine ⟨hwanes, h.wanes hwanes (h.counted.revise_same hu (fun q => ?_) ?_), ?_⟩
    · cases nature with
      | hosted tenure carries => rfl
      | plain named held heirs =>
        have hnamed' : named = true := hnamed rfl
        simp [Thing.isHeirOf, Thing.isPlain, hnamed']
    · intro n hd k hk
      cases nature with
      | hosted tenure carries => cases hk
      | plain named held heirs =>
        obtain ⟨-, -, rfl⟩ := Nature.plain.inj hk
        exact ⟨_, _, rfl⟩
    · intro q v hq hv hvp
      obtain rfl := Option.some.inj hq
      rw [World.hold, thing?_revise_self hu] at hv
      obtain rfl := Option.some.inj hv
      cases nature with
      | hosted tenure carries => cases hvp
      | plain named held heirs => rfl

/-- Making a hosted thing with a new identity. -/
lemma Sound.makeHosted (h : w.Sound) {parent : Option Ref} (raw : UInt64) (leased carries : Bool)
    (hparent : ∀ p, parent = some p → ∃ u, w.thing? p = some u ∧
      (u.isPlain = true → u.isNamed = true))
    (hnew : ∀ s u, w.thing? s = some u → u.id ≠ .given raw) :
    ∃ t, t.isPlain = false ∧ Gains w t (w.makeHosted raw parent leased carries) := by
  obtain ⟨hx, hsound, hheld⟩ := h.hold hparent
  have hlt : ∀ p, parent = some p → p < (w.hold parent).things.size := by
    intro p hp
    obtain ⟨u, hu, -⟩ := hparent p hp
    exact hx.size ▸ lt_size_of_thing? hu
  refine ⟨_, rfl, hx.gains ⟨hsound.formed.push (Nat.le_refl _) hlt ?_ ?_ ?_ ?_,
    hsound.counted.push hsound.formed ?_ ?_ ?_, hsound.held.push hsound.formed hlt ?_⟩⟩
  · intro s u hu hid
    obtain ⟨t, ht, hkept⟩ := hx.back hu
    exact hnew s t ht (hkept.id.symm.trans hid)
  · intro k hid
    cases hid
  · intro _ _
    rfl
  · intro p u hplain
    cases hplain
  · intro q
    rfl
  · intro named held heirs hnature
    cases hnature
  · intro q hq
    cases hq
  · intro p u _ hp hu hup
    exact hheld p u hp hu hup

end World

end Glossary
