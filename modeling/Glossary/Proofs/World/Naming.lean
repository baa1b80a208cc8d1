import Glossary.Proofs.World.Delegation
import Glossary.World.Stage

/-!
# Named things are living

A name keeps a plain thing alive, as long as it refers to it.  `Stage.Sound` says that every name
refers to a thing that knows it has a name, and no two names to one thing, so that taking one name
away harms no other.  Making, dropping and expiring things preserve this, and lead to a later
world.  It follows that the plain things on the chain of a named object are living.
-/

namespace Glossary

namespace Stage

variable {s s' : Stage} {r : Ref} {t : Thing} {name : Option String}

/-- Names refer to things that have a name, and no two names to one thing. -/
structure Sound (s : Stage) : Prop where
  /-- The world is sound. -/
  world : s.world.Sound
  /-- A name refers to a thing that has a name, if it is plain. -/
  bound : ∀ n r, s.names.lookup n = some (.thing r) →
    ∃ t, s.world.thing? r = some t ∧ (t.isPlain = true → t.isNamed = true)
  /-- No two names refer to one thing. -/
  single : ∀ n m r, s.names.lookup n = some (.thing r) → s.names.lookup m = some (.thing r) → n = m

lemma sound_empty : empty.Sound where
  world := World.sound_empty
  bound := by simp [empty]
  single := by simp [empty]

/-- What a change of the stage can do to the things: all are kept, and at most one is new. -/
structure Moves (s : Stage) (new : Option Thing) (s' : Stage) : Prop where
  /-- The stage is sound after the change. -/
  sound : s'.Sound
  /-- The things are still there. -/
  later : s.world.Later s'.world
  /-- Everything was there before but the new thing. -/
  back : ∀ r u, s'.world.thing? r = some u →
    (∃ t ∈ new, t.Kept u) ∨ ∃ t, s.world.thing? r = some t ∧ t.Kept u

lemma Sound.moves (h : s.Sound) : Moves s none s :=
  ⟨h, .refl _, fun _ u hu => Or.inr ⟨u, hu, .refl u⟩⟩

lemma Moves.trans {new : Option Thing} {s'' : Stage} (h : Moves s new s') (h' : Moves s' none s'') :
    Moves s new s'' where
  sound := h'.sound
  later := h.later.trans h'.later
  back := by
    intro r u hu
    rcases h'.back r u hu with ⟨t, ht, -⟩ | ⟨t, ht, hkept⟩
    · cases ht
    · rcases h.back r t ht with ⟨t', ht', hkept'⟩ | ⟨t', ht', hkept'⟩
      · exact Or.inl ⟨t', ht', hkept'.trans hkept⟩
      · exact Or.inr ⟨t', ht', hkept'.trans hkept⟩

lemma Sound.moves_of_wanes (h : s'.Sound) {but : Option Ref}
    (hw : World.Wanes but s.world s'.world) : Moves s none s' :=
  ⟨h, hw.later, fun _ _ hu => Or.inr (hw.back hu)⟩

/-! ## Asking for things -/

/-- An object is asked for by a name that refers to it. -/
lemma object_eq_ok (h : s.object name = .ok (r, t)) :
    ∃ n, name = some n ∧ s.names.lookup n = some (.thing r) ∧ s.world.thing? r = some t := by
  cases name with
  | none => cases h
  | some n =>
    simp only [object, binding] at h
    cases hl : s.names.lookup n with
    | none => simp [hl] at h
    | some b =>
      cases b with
      | foreign => simp [hl] at h
      | thing q =>
        simp only [hl] at h
        cases hq : s.world.thing? q with
        | none => simp [hq] at h
        | some u =>
          simp only [hq, Except.ok.injEq, Prod.mk.injEq] at h
          obtain ⟨rfl, rfl⟩ := h
          exact ⟨n, rfl, hl, hq⟩

/-- A named object is a thing that has a name, if it is plain. -/
lemma Sound.object (h : s.Sound) (ho : s.object name = .ok (r, t)) :
    s.world.thing? r = some t ∧ (t.isPlain = true → t.isNamed = true) := by
  obtain ⟨n, -, hl, hr⟩ := object_eq_ok ho
  obtain ⟨u, hu, hnamed⟩ := h.bound n r hl
  obtain rfl := Option.some.inj (hr.symm.trans hu)
  exact ⟨hr, hnamed⟩

lemma Sound.object? (h : s.Sound) {p : Option Ref} (ho : s.object? name = .ok p) :
    ∀ q, p = some q → ∃ u, s.world.thing? q = some u ∧ (u.isPlain = true → u.isNamed = true) := by
  rintro q rfl
  cases name with
  | none => cases ho
  | some n =>
    rw [Stage.object?] at ho
    cases hn : s.object (some n) with
    | error e => simp [hn, Except.map] at ho
    | ok x =>
      simp only [hn, Except.map, Except.ok.injEq, Option.some.injEq] at ho
      exact ⟨x.2, ho ▸ h.object hn⟩

lemma object_of_plain (hp : s.plain name = .ok (r, t)) :
    s.object name = .ok (r, t) ∧ t.isPlain = true := by
  rw [plain] at hp
  split at hp
  · cases hp
  · cases hp
  · next r' t' ho =>
    split at hp
    · next hplain =>
      cases hp
      exact ⟨ho, hplain⟩
    · cases hp

lemma object_of_hosted (hp : s.hosted name = .ok (r, t)) : s.object name = .ok (r, t) := by
  rw [hosted] at hp
  split at hp
  · cases hp
  · cases hp
  · next r' t' ho =>
    split at hp
    · cases hp
    · cases hp
      exact ho

lemma Sound.plain? (h : s.Sound) {p : Option Ref} (ho : s.plain? name = .ok p) :
    ∀ q, p = some q → ∃ u, s.world.thing? q = some u ∧ u.isNamed = true := by
  rintro q rfl
  cases name with
  | none => cases ho
  | some n =>
    rw [Stage.plain?] at ho
    cases hn : s.plain (some n) with
    | error e => simp [hn, Except.map] at ho
    | ok x =>
      simp only [hn, Except.map, Except.ok.injEq, Option.some.injEq] at ho
      obtain ⟨hobject, hplain⟩ := object_of_plain hn
      obtain ⟨hu, hnamed⟩ := h.object hobject
      exact ⟨x.2, ho ▸ hu, hnamed hplain⟩

/-! ## Names that come and go -/

lemma lookup_forget (s : Stage) (n m : String) :
    (s.forget n).names.lookup m = if m = n then none else s.names.lookup m := by
  have hnames : (s.forget n).names = s.names.filter (·.1 ≠ n) := by
    rw [forget]
    split <;> rfl
  rw [hnames]
  exact lookup_filter_ne n m s.names

lemma lookup_of_lookup_forget {n m : String} {b : Binding}
    (h : (s.forget n).names.lookup m = some b) : m ≠ n ∧ s.names.lookup m = some b := by
  rw [lookup_forget] at h
  split at h
  · cases h
  · next hne => exact ⟨hne, h⟩

/-- Taking a name away is felt by the thing that it refers to, if there is one. -/
lemma Sound.forget_world (h : s.Sound) (n : String) :
    (s.forget n).world.Sound ∧ ∃ but, World.Wanes but s.world (s.forget n).world ∧
      ∀ q, but = some q → s.names.lookup n = some (.thing q) := by
  have hsame : s.world.Sound ∧ ∃ but, World.Wanes but s.world s.world ∧
      ∀ q, but = some q → s.names.lookup n = some (.thing q) :=
    ⟨h.world, none, .refl _ _, fun q hq => by cases hq⟩
  rw [Stage.forget]
  split
  · next q hn =>
    obtain ⟨hwanes, hsound⟩ := h.world.unname q
    refine ⟨hsound, some q, hwanes, fun q' hq => ?_⟩
    rw [← Option.some.inj hq, hn]
  · exact hsame

/-- A thing to which another name refers, or none, still has its name. -/
lemma Sound.named_forget (h : s.Sound) {n : String} (hr : s.world.thing? r = some t)
    (hnamed : t.isPlain = true → t.isNamed = true) (hne : s.names.lookup n ≠ some (.thing r)) :
    ∃ u, (s.forget n).world.thing? r = some u ∧ (u.isPlain = true → u.isNamed = true) := by
  obtain ⟨-, but, hwanes, hbut⟩ := h.forget_world n
  obtain ⟨u, hu, hkept⟩ := hwanes.later r t hr
  refine ⟨u, hu, fun hup => ?_⟩
  exact hwanes.named r t u (fun hq => hne (hbut r hq.symm)) hr hu (hnamed (hkept.plain ▸ hup))

lemma Sound.forget (h : s.Sound) (n : String) : (s.forget n).Sound where
  world := (h.forget_world n).1
  bound := by
    intro m r hm
    obtain ⟨hmn, hm⟩ := lookup_of_lookup_forget hm
    obtain ⟨t, ht, hnamed⟩ := h.bound m r hm
    -- the name that is taken away refers to another thing
    exact h.named_forget ht hnamed fun hn => hmn (h.single m n r hm hn)
  single := by
    intro k m r hk hm
    exact h.single k m r (lookup_of_lookup_forget hk).2 (lookup_of_lookup_forget hm).2

lemma Sound.moves_forget (h : s.Sound) (n : String) : Moves s none (s.forget n) := by
  obtain ⟨-, but, hwanes, -⟩ := h.forget_world n
  exact (h.forget n).moves_of_wanes hwanes

/-- A name can be given to anything that no name refers to yet. -/
lemma Sound.bind (h : s.Sound) (n : String) {b : Binding}
    (hfree : ∀ r, b = .thing r → ∀ m, s.names.lookup m ≠ some (.thing r))
    (hnamed : ∀ r, b = .thing r →
      ∃ t, s.world.thing? r = some t ∧ (t.isPlain = true → t.isNamed = true)) :
    Moves s none (s.bind n b) := by
  have hforget := h.forget n
  have hlookup : ∀ m r, (s.bind n b).names.lookup m = some (.thing r) →
      (m = n ∧ b = .thing r) ∨ (s.forget n).names.lookup m = some (.thing r) := by
    intro m r hm
    rw [Stage.bind, lookup_cons_eq_ite] at hm
    split at hm
    · next hmn => exact Or.inl ⟨hmn, Option.some.inj hm⟩
    · exact Or.inr hm
  have hmoves := h.moves_forget n
  refine ⟨⟨hforget.world, fun m r hm => ?_, fun k m r hk hm => ?_⟩, hmoves.later, hmoves.back⟩
  · rcases hlookup m r hm with ⟨-, hb⟩ | hm
    · obtain ⟨t, ht, htn⟩ := hnamed r hb
      exact h.named_forget ht htn (hfree r hb n)
    · exact hforget.bound m r hm
  · rcases hlookup k r hk with ⟨rfl, hb⟩ | hk
    · rcases hlookup m r hm with ⟨rfl, -⟩ | hm
      · rfl
      · exact absurd (lookup_of_lookup_forget hm).2 (hfree r hb m)
    · rcases hlookup m r hm with ⟨rfl, hb⟩ | hm
      · exact absurd (lookup_of_lookup_forget hk).2 (hfree r hb k)
      · exact hforget.single k m r hk hm

/-! ## Changes of the stage -/

/-- A new thing is given its name. -/
lemma Sound.bind_new (h : s.Sound) {w : World} (hw : World.Gains s.world t w)
    (ht : t.isPlain = true → t.isNamed = true) (n : String) :
    Moves s (some t) (Stage.bind { s with world := w } n (.thing s.world.things.size)) := by
  have hs' : Sound { s with world := w } := by
    refine ⟨hw.sound, fun m r hm => ?_, h.single⟩
    obtain ⟨u, hu, hnamed⟩ := h.bound m r hm
    obtain ⟨u', hu', hkept⟩ := hw.later r u hu
    exact ⟨u', hu', fun hup => hw.named r u u' hu hu' (hnamed (hkept.plain ▸ hup))⟩
  have hgains : Moves s (some t) { s with world := w } := by
    refine ⟨hs', hw.later, fun r u hu => ?_⟩
    rcases hw.back r u hu with rfl | hback
    · exact Or.inl ⟨u, rfl, .refl u⟩
    · exact Or.inr hback
  refine hgains.trans (hs'.bind n ?_ ?_)
  · intro r hr m hm
    obtain rfl := Binding.thing.inj hr
    -- a name refers to a thing that was there before
    obtain ⟨u, hu, -⟩ := h.bound m _ hm
    exact Nat.lt_irrefl _ (World.lt_size_of_thing? hu)
  · intro r hr
    obtain rfl := Binding.thing.inj hr
    exact ⟨t, hw.new, ht⟩

/-- Making a thing whose identity, if it is given, is new. -/
lemma Sound.make (h : s.Sound) {n : String} {recipe : Recipe} {o : Option ObjectId}
    (hmake : s.make n recipe = .ok (s', o))
    (hnew : ∀ raw parent leased carries, recipe = .hosted raw parent leased carries →
      ∀ r t, s.world.thing? r = some t → t.id ≠ .given raw) :
    ∃ new, Moves s new s' ∧ ((∀ raw parent leased carries,
      recipe ≠ .hosted raw parent leased carries) → ∀ t ∈ new, t.isPlain = true) := by
  cases recipe with
  | foreign =>
    obtain ⟨rfl, -⟩ := Prod.mk.inj (Except.ok.inj hmake)
    exact ⟨none, h.bind n (fun r hr => by cases hr) (fun r hr => by cases hr),
      fun _ t ht => by cases ht⟩
  | plain parent =>
    cases hp : s.plain? parent with
    | error e => simp [Stage.make, hp, Bind.bind, Except.bind] at hmake
    | ok p =>
      simp only [Stage.make, hp, Bind.bind, Except.bind, pure, Except.pure, Except.ok.injEq,
        Prod.mk.injEq] at hmake
      obtain ⟨rfl, -⟩ := hmake
      refine ⟨_, h.bind_new (h.world.makePlain (h.plain? hp)) (fun _ => rfl) n, fun _ t ht => ?_⟩
      obtain rfl := Option.some.inj ht
      rfl
  | hosted raw parent leased carries =>
    cases hp : s.object? parent with
    | error e => simp [Stage.make, hp, Bind.bind, Except.bind] at hmake
    | ok p =>
      simp only [Stage.make, hp, Bind.bind, Except.bind, pure, Except.pure, Except.ok.injEq,
        Prod.mk.injEq] at hmake
      obtain ⟨rfl, -⟩ := hmake
      obtain ⟨t, ht, hgains⟩ := h.world.makeHosted raw leased carries (h.object? hp)
        (hnew raw parent leased carries rfl)
      refine ⟨some t, h.bind_new hgains (fun hplain => ?_) n, fun hno => ?_⟩
      · rw [ht] at hplain
        cases hplain
      · exact absurd rfl (hno raw parent leased carries)

/-- Ending the lease of a thing. -/
lemma Sound.endLease (h : s.Sound) (hr : s.world.thing? r = some t) :
    Moves s none { s with world := s.world.endLease r } := by
  obtain ⟨hwanes, hsound⟩ := h.world.endLease hr
  refine Sound.moves_of_wanes ⟨hsound, fun m q hm => ?_, h.single⟩ hwanes
  obtain ⟨u, hu, hnamed⟩ := h.bound m q hm
  obtain ⟨u', hu', hkept⟩ := hwanes.later q u hu
  exact ⟨u', hu', fun hup => hwanes.named q u u' (by simp) hu hu' (hnamed (hkept.plain ▸ hup))⟩

lemma Sound.expire (h : s.Sound) {b : Bool} (hexpire : s.expire name = .ok (s', b)) :
    Moves s none s' := by
  cases hn : s.hosted name with
  | error e => simp [Stage.expire, hn, Bind.bind, Except.bind] at hexpire
  | ok x =>
    simp only [Stage.expire, hn, Bind.bind, Except.bind, pure, Except.pure, Except.ok.injEq,
      Prod.mk.injEq] at hexpire
    obtain ⟨rfl, -⟩ := hexpire
    exact h.endLease (h.object (object_of_hosted hn)).1

lemma Sound.drop (h : s.Sound) {b : Option Bool} (hdrop : s.drop name = .ok (s', b)) :
    Moves s none s' := by
  cases name with
  | none => cases hdrop
  | some n =>
    have hforget := h.moves_forget n
    cases hn : s.names.lookup n with
    | none => simp [Stage.drop, binding, hn, Bind.bind, Except.bind] at hdrop
    | some k =>
      cases k with
      | foreign =>
        simp only [Stage.drop, binding, hn, Bind.bind, Except.bind, pure, Except.pure,
          Except.ok.injEq, Prod.mk.injEq] at hdrop
        obtain ⟨rfl, -⟩ := hdrop
        exact hforget
      | thing r =>
        simp only [Stage.drop, binding, hn, Bind.bind, Except.bind, pure, Except.pure,
          Except.ok.injEq, Prod.mk.injEq] at hdrop
        obtain ⟨rfl, -⟩ := hdrop
        obtain ⟨t, ht, -⟩ := h.bound n r hn
        obtain ⟨u, hu, -⟩ := hforget.later r t ht
        exact hforget.trans (hforget.sound.endLease hu)

/-! ## The chain of a named object -/

/-- The chain of a named object is that of the thing to which the name refers. -/
lemma Sound.chain_eq_ok_iff (h : s.Sound) {c : Chain} :
    s.chain name = .ok c ↔ ∃ r t, s.object name = .ok (r, t) ∧ s.world.Leads r t c.links := by
  cases hn : s.object name with
  | error e => simp [Stage.chain, hn, Bind.bind, Except.bind]
  | ok x =>
    obtain ⟨r, t⟩ := x
    obtain ⟨hr, -⟩ := h.object hn
    -- a named thing has a chain, so the short one that stands in for it is not taken
    have hchain : s.chain name = .ok c ↔ s.world.chain? r = some c := by
      simp [Stage.chain, hn, Bind.bind, Except.bind, pure, Except.pure, World.chain?, hr]
    rw [hchain, h.world.formed.chain?_eq_some_iff]
    constructor
    · rintro ⟨u, hleads⟩
      obtain rfl := Option.some.inj (hr.symm.trans hleads.thing?)
      exact ⟨r, t, rfl, hleads⟩
    · rintro ⟨r', t', hobject, hleads⟩
      cases hobject
      exact ⟨t, hleads⟩

/-- The plain things on the chain of a named object are living. -/
lemma Sound.chain (h : s.Sound) {c : Chain} (hc : s.chain name = .ok c) :
    ∃ r t, s.world.Leads r t c.links ∧ ∀ y ∈ c.links, ∃ q u, s.world.thing? q = some u ∧
      y = u.link q ∧ (u.isPlain = true → u.isDead = false) := by
  obtain ⟨r, t, hn, hleads⟩ := h.chain_eq_ok_iff.1 hc
  obtain ⟨-, hnamed⟩ := h.object hn
  refine ⟨r, t, hleads, fun y hy => hleads.living h.world (fun hplain => ?_) hy⟩
  exact Thing.isDead_of_isNamed (hnamed hplain)

end Stage

end Glossary
