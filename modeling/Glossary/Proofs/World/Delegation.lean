import Glossary.Proofs.World.Lifetime

/-!
# Delegation chains

In a world in which things delegate to older ones, following a thing takes fewer steps than there
are things before it, so the bound of `chain?` is never felt.  `Leads` is the chain without the
bound: a thing, and then the chain of what it delegates to.  A thing has just one such chain, so
`chain?` gives it and nothing else (`Formed.chain?_eq_some_iff`).  All that is said about a chain is
proved by induction on it.
-/

namespace Glossary

namespace World

variable {w : World} {r : Ref} {t : Thing} {links : List Link}

/-- The chain of a thing: the thing itself, and the chain of what it delegates to. -/
inductive Leads (w : World) : Ref → Thing → List Link → Prop
  /-- The chain ends at a thing that delegates to nothing. -/
  | last {r : Ref} {t : Thing} (hr : w.thing? r = some t) (hp : t.parent = none) :
    Leads w r t [t.link r]
  /-- The chain goes on with what the thing delegates to. -/
  | next {r p : Ref} {t u : Thing} {links : List Link} (hr : w.thing? r = some t)
    (hp : t.parent = some p) (h : Leads w p u links) : Leads w r t (t.link r :: links)

lemma Leads.thing? (h : w.Leads r t links) : w.thing? r = some t := by
  cases h with
  | last hr hp => exact hr
  | next hr hp h => exact hr

/-- A bound that is not below the number of the thing is not felt. -/
lemma Formed.leads_aboveUpTo (h : w.Formed) {n : Nat} (hr : w.thing? r = some t) (hn : r ≤ n) :
    w.Leads r t (t.link r :: w.aboveUpTo n t) := by
  induction n generalizing r t with
  | zero =>
    have hp : t.parent = none := by
      cases hp : t.parent with
      | none => rfl
      | some p => exact absurd (Nat.lt_of_lt_of_le (h.older r t hr p hp) hn) (Nat.not_lt_zero p)
    exact .last hr hp
  | succ n ih =>
    rw [aboveUpTo]
    cases hp : t.parent with
    | none => exact .last hr hp
    | some p =>
      obtain ⟨hlt, u, hu⟩ := h.parent_exists hr hp
      simp only [hu]
      exact .next hr hp (ih hu (Nat.le_of_lt_succ (Nat.lt_of_lt_of_le hlt hn)))

/-- A thing has no other chain. -/
lemma Leads.unique {u : Thing} {links' : List Link} (h : w.Leads r t links)
    (h' : w.Leads r u links') : links = links' := by
  induction h generalizing u links' with
  | last hr hp =>
    obtain rfl := Option.some.inj (hr.symm.trans h'.thing?)
    cases h' with
    | last _ _ => rfl
    | next _ hp' _ =>
      rw [hp] at hp'
      cases hp'
  | next hr hp _ ih =>
    obtain rfl := Option.some.inj (hr.symm.trans h'.thing?)
    cases h' with
    | last _ hp' =>
      rw [hp] at hp'
      cases hp'
    | next _ hp' h' =>
      obtain rfl := Option.some.inj (hp.symm.trans hp')
      rw [ih h']

/-- What is followed with a bound is the chain of a thing. -/
lemma Formed.chain?_eq_some_iff (h : w.Formed) {c : Chain} :
    w.chain? r = some c ↔ ∃ t, w.Leads r t c.links := by
  have hleads : ∀ {t}, w.thing? r = some t → w.Leads r t (t.link r :: w.aboveUpTo w.things.size t) :=
    fun hr => h.leads_aboveUpTo hr (Nat.le_of_lt (lt_size_of_thing? hr))
  rw [chain?, Option.map_eq_some_iff]
  constructor
  · rintro ⟨t, hr, rfl⟩
    exact ⟨t, hleads hr⟩
  · rintro ⟨t, hc⟩
    obtain ⟨hself, habove⟩ := List.cons.inj ((hleads hc.thing?).unique hc)
    exact ⟨t, hc.thing?, by rw [hself, habove]⟩

/-- The objects of a chain are things, none of them newer than the first. -/
lemma Leads.mem (h : w.Leads r t links) (hw : w.Formed) {y : Link} (hy : y ∈ links) :
    ∃ s u, s ≤ r ∧ w.thing? s = some u ∧ y = u.link s := by
  induction h with
  | last hr hp => exact ⟨_, _, Nat.le_refl _, hr, List.mem_singleton.1 hy⟩
  | next hr hp h ih =>
    rcases List.mem_cons.1 hy with rfl | hy
    · exact ⟨_, _, Nat.le_refl _, hr, rfl⟩
    · obtain ⟨s, u, hle, hu, hyu⟩ := ih hy
      exact ⟨s, u, Nat.le_of_lt (Nat.lt_of_le_of_lt hle (hw.older _ _ hr _ hp)), hu, hyu⟩

/-- No identity occurs twice on a chain. -/
lemma Leads.distinct (h : w.Leads r t links) (hw : w.Formed) :
    links.Pairwise fun x y => x.id ≠ y.id := by
  induction h with
  | last hr hp => exact List.pairwise_singleton _ _
  | next hr hp h ih =>
    refine List.pairwise_cons.2 ⟨fun y hy hid => ?_, ih⟩
    -- a thing with the same identity would be the same thing, and yet an older one
    obtain ⟨s, u, hle, hu, rfl⟩ := h.mem hw hy
    have hs := hw.unique _ _ _ _ hr hu hid
    exact Nat.lt_irrefl _ (Nat.lt_of_le_of_lt (hs ▸ hle) (hw.older _ _ hr _ hp))

/-- The plain things on a chain are living, if the first thing is. -/
lemma Leads.living (h : w.Leads r t links) (hw : w.Sound)
    (hliving : t.isPlain = true → t.isDead = false) {y : Link} (hy : y ∈ links) :
    ∃ s u, w.thing? s = some u ∧ y = u.link s ∧ (u.isPlain = true → u.isDead = false) := by
  induction h with
  | last hr hp => exact ⟨_, _, hr, List.mem_singleton.1 hy, hliving⟩
  | next hr hp h ih =>
    rcases List.mem_cons.1 hy with rfl | hy
    · exact ⟨_, _, hr, rfl, hliving⟩
    · refine ih (fun hplain => ?_) hy
      exact hw.up_living hr hliving hp h.thing? hplain

end World

end Glossary
