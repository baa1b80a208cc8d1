import Glossary.Proofs.Layer.Reachable
import Glossary.Proofs.Layer.Stack
import Glossary.Proofs.World.Later
import Mathlib.Data.List.Perm.Subperm

/-!
# Walks through a world

Things may delegate to each other in a circle, and several things may have one identity, so following
what a thing delegates to need not come to an end.  The chain of a thing is therefore cut off after
as many steps as there are things.  `Follows` goes from thing to thing without any bound.

A walk that looks for an object with a layer never feels the bound: it stops at an identity that it
has passed, and there are no more identities than things.  So what is said in `Halts` about the end of
a walk is said of the world itself, and `Reachable.ensure_exact` tells what comes of giving a layer to
any thing of any world.
-/

namespace Glossary

namespace World

variable {w : World} {r : Ref} {x : Thing} {a b : Option Ref} {links passed : List Link}

/-! ## Following what things delegate to -/

/-- Following what things delegate to leads past these things, the nearest first, and comes to this
reference next. -/
inductive Follows (w : World) : Option Ref → List Link → Option Ref → Prop
  /-- No thing was passed yet. -/
  | start (a : Option Ref) : Follows w a [] a
  /-- A thing is passed, and then what it delegates to is followed. -/
  | pass {r : Ref} {t : Thing} {links : List Link} {b : Option Ref} (hr : w.thing? r = some t)
    (h : Follows w t.parent links b) : Follows w (some r) (t.link r :: links) b

lemma Follows.split {rest : List Link} (h : w.Follows a (passed ++ rest) b) :
    ∃ m, w.Follows a passed m ∧ w.Follows m rest b := by
  induction passed generalizing a with
  | nil => exact ⟨a, .start a, h⟩
  | cons y passed ih =>
    cases h with
    | pass hr hrest =>
      obtain ⟨m, hpassed, hm⟩ := ih hrest
      exact ⟨m, .pass hr hpassed, hm⟩

lemma Follows.exists_thing (h : w.Follows a links b) {y : Link} (hy : y ∈ links) :
    ∃ t ∈ w.things, t.id = y.id := by
  induction h with
  | start a => cases hy
  | @pass r t links b hr _ ih =>
    rcases List.mem_cons.1 hy with rfl | hy
    · exact ⟨t, Array.mem_of_getElem? hr, rfl⟩
    · exact ih hy

/-- No more things are passed than there are, as long as no identity is passed twice. -/
lemma Follows.length_le (h : w.Follows a links b)
    (hdistinct : links.Pairwise fun y z => y.id ≠ z.id) : links.length ≤ w.things.size := by
  have hsubset : links.map (·.id) ⊆ w.things.toList.map (·.id) := by
    intro o ho
    obtain ⟨y, hy, rfl⟩ := List.mem_map.1 ho
    obtain ⟨t, ht, hid⟩ := h.exists_thing hy
    exact List.mem_map.2 ⟨t, Array.mem_toList_iff.2 ht, hid⟩
  have hnodup : (links.map (·.id)).Nodup := List.pairwise_map.2 hdistinct
  have hle := (hnodup.subperm hsubset).length_le
  rwa [List.length_map, List.length_map, Array.length_toList] at hle

/-- The chain of a thing follows what it delegates to, up to the end or for as many steps as it is
allowed to. -/
lemma follows_aboveUpTo (n : Nat) (hr : w.thing? r = some x) :
    ∃ b, w.Follows (some r) (x.link r :: w.aboveUpTo n x) b ∧
      (b.bind w.thing? = none ∨ (x.link r :: w.aboveUpTo n x).length = n + 1) := by
  induction n generalizing r x with
  | zero => exact ⟨x.parent, .pass hr (.start _), Or.inr rfl⟩
  | succ n ih =>
    rw [aboveUpTo]
    cases hp : x.parent with
    | none =>
      have hstay : w.Follows x.parent [] none := by
        rw [hp]
        exact .start none
      exact ⟨none, .pass hr hstay, Or.inl rfl⟩
    | some p =>
      simp only
      cases hu : w.thing? p with
      | none =>
        have hstay : w.Follows x.parent [] (some p) := by
          rw [hp]
          exact .start (some p)
        exact ⟨some p, .pass hr hstay, Or.inl hu⟩
      | some u =>
        obtain ⟨b, hfollows, hend⟩ := ih hu
        rw [← hp] at hfollows
        exact ⟨b, .pass hr hfollows, hend.imp_right (congrArg (· + 1))⟩

/-- Every thing has a chain, which begins with it.  It goes on to the end, or it is longer than there
are things. -/
lemma exists_chain (hr : w.thing? r = some x) :
    ∃ c b, w.chain? r = some c ∧ c.self = x.link r ∧ w.Follows (some r) c.links b ∧
      (b.bind w.thing? = none ∨ c.links.length = w.things.size + 1) := by
  obtain ⟨b, hfollows, hend⟩ := follows_aboveUpTo w.things.size hr
  refine ⟨⟨x.link r, w.aboveUpTo w.things.size x⟩, b, ?_, rfl, hfollows, hend⟩
  rw [chain?, hr, Option.map_some]

end World

namespace LayerTree

variable {root : ObjectId} {t : LayerTree} {w : World} {a b : Option Ref} {links : List Link}

/-! ## The end of a walk -/

/-- Why a walk through a world ends when these things were passed, and what is to be done next: it
gives the layer to grow from, and the identity that was met again. -/
inductive Halts (w : World) (t : LayerTree) (passed : List Link) :
    Option Ref → LayerId → Option ObjectId → Prop
  /-- There is no next thing. -/
  | finished {next : Option Ref} (h : next.bind w.thing? = none) :
    Halts w t passed next .root none
  /-- The next thing has a layer. -/
  | owned {s : Ref} {u : Thing} {i : LayerId} (hs : w.thing? s = some u)
    (h : t.layerOf? u.id = some i) : Halts w t passed (some s) i none
  /-- The next thing has no layer, and an identity that was passed. -/
  | repeated {s : Ref} {u : Thing} (hs : w.thing? s = some u) (h : t.layerOf? u.id = none)
    (hseen : ∃ y ∈ passed, y.id = u.id) : Halts w t passed (some s) .root (some u.id)

/-- A walk along things that follow each other is a walk through the world.  It does not end because
there are no more of them, unless the world goes no further: if they are more than there are things,
an identity comes again before that. -/
lemma Surveyed.exists_halts {s : Site} (hs : Surveyed t [] links s) (hfollows : w.Follows a links b)
    (hend : b.bind w.thing? = none ∨ links.length = w.things.size + 1) :
    ∃ next, w.Follows a s.pending.reverse next ∧
      Halts w t s.pending.reverse next s.anchor s.repeated := by
  obtain ⟨pending, anchor, again⟩ := s
  obtain ⟨hbare, passed, rest, rfl, rfl, hstop⟩ := hs
  rw [List.append_nil] at hbare hstop
  simp only [List.append_nil, List.reverse_reverse]
  obtain ⟨next, hpassed, hrest⟩ := hfollows.split
  refine ⟨next, hpassed, ?_⟩
  cases hstop with
  | finished =>
    obtain _ | _ := hrest
    refine .finished (hend.resolve_right fun hlength => ?_)
    have hle := hpassed.length_le (List.reverse_reverse passed ▸ hbare.reverse.distinct)
    rw [List.append_nil] at hlength
    omega
  | owned rest ho =>
    obtain _ | ⟨hs, -⟩ := hrest
    exact .owned hs ho
  | repeated rest ho hmem =>
    obtain _ | ⟨hs, -⟩ := hrest
    exact .repeated hs ho (by simpa using hmem)

/-! ## What is reported -/

lemma cycle_not_mem_tidyEvents (ended : Lease → Bool) (t : LayerTree) (o : ObjectId) :
    Event.cycle o ∉ t.tidyEvents ended := by
  rw [tidyEvents]
  split <;> simp

lemma cycle_not_mem_graftAll (t : LayerTree) (parent : LayerId) (xs : List Link) (o : ObjectId) :
    Event.cycle o ∉ (t.graftAll parent xs).events := by
  induction xs generalizing t parent with
  | nil => simp [graftAll]
  | cons x rest ih => simpa [graftAll] using ih (t.graft x parent) t.nextId

/-- A circle is reported exactly if the walk has met an identity again. -/
lemma cycle_mem_ensure (t : LayerTree) (ended : Lease → Bool) (c : Chain) (o : ObjectId) :
    Event.cycle o ∈ (t.ensure ended c).events ↔
      ((t.tidy ended).survey [] c.links).repeated = some o := by
  simp only [ensure, grow, List.mem_append, cycle_not_mem_tidyEvents, cycle_not_mem_graftAll,
    false_or, or_false, Option.mem_toList, Option.map_eq_some_iff]
  constructor
  · rintro ⟨o', hrepeated, heq⟩
    cases heq
    exact hrepeated
  · exact fun hrepeated => ⟨o, hrepeated, rfl⟩

/-! ## The exact effect -/

/-- The exact effect of giving a layer to the thing with a reference, on a tree that was pruned if
that was due. -/
structure Ensured (w : World) (r : Ref) (x : Thing) (t : LayerTree)
    (o : Outcome LayerTree LayerId) : Prop where
  /-- A walk passes things without layers, none with an identity that was passed before, and ends at
  the first thing for which this is not so.  The tree grows by their layers. -/
  walk : ∃ passed next anchor again, w.Follows (some r) passed next ∧ t.Bare passed ∧
    Halts w t passed next anchor again ∧ Grown t anchor passed o.state o.result ∧
    ∀ y, Event.cycle y ∈ o.events ↔ again = some y
  /-- The thing has the layer that was given. -/
  given : o.state.layerOf? x.id = some o.result
  /-- A thing that had a layer has it still, and nothing happens. -/
  already : ∀ i, t.layerOf? x.id = some i → o.result = i ∧ o.state = t

/-- **Giving a layer to a thing builds layers for exactly the things that its chain leads past.**
This holds in every world, whatever delegates to what in it, and for every tree that can arise.  The
things that are passed have no layers, and the walk stops at the first thing that has one, at an
identity that was passed before, or where nothing more comes.  In the last two cases the new layers
begin at the root. -/
theorem Reachable.ensure_exact (h : Reachable root t) (ended : Lease → Bool) (w : World) (r : Ref)
    (x : Thing) (hr : w.thing? r = some x) :
    ∃ c, w.chain? r = some c ∧ Ensured w r x (t.tidy ended) (t.ensure ended c) := by
  have hwf := h.wellFormed
  obtain ⟨c, b, hc, hself, hfollows, hend⟩ := World.exists_chain hr
  have hsurveyed := surveyed (t.tidy ended).bare_nil c.links
  obtain ⟨next, hpassed, hhalts⟩ := hsurveyed.exists_halts hfollows hend
  have hid : c.self.id = x.id := congrArg Link.id hself
  refine ⟨c, hc, ⟨_, next, _, _, hpassed, hsurveyed.bare.reverse, hhalts,
    hwf.grown_ensure ended c, cycle_mem_ensure t ended c⟩, ?_, fun i hi => ?_⟩
  · exact hid ▸ layerOf?_ensure t ended c
  · rw [LayerTree.ensure, grow, Chain.links, survey_of_owned (hid ▸ hi)]
    exact ⟨rfl, rfl⟩

/-- Three things that delegate to each other in a circle, of which the first and the last have the
same identity. -/
def ring : World where
  things := #[⟨.given 5, some 1, .hosted .permanent true⟩, ⟨.given 6, some 2, .hosted .running true⟩,
    ⟨.given 5, some 0, .hosted .permanent true⟩]
  minted := 0

theorem Reachable.ensure_exact_ring :
    Reachable (.minted 0) thinned ∧ ∃ x c, ring.thing? 0 = some x ∧ ring.chain? 0 = some c ∧
      Ensured ring 0 x (thinned.tidy fun _ => false) (thinned.ensure (fun _ => false) c) := by
  have h : Reachable (.minted 0) thinned := ((Reachable.start.ensure _ _).ensure _ _).setEntries _ _
  obtain ⟨x, hx⟩ : ∃ x, ring.thing? 0 = some x := ⟨_, rfl⟩
  obtain ⟨c, hc, hensured⟩ := Reachable.ensure_exact h (fun _ => false) ring 0 x hx
  exact ⟨h, x, c, hx, hc, hensured⟩

-- the walk passes two things, and the first identity comes again before the circle is closed
example : ((ring.chain? 0).map fun c => (thinned.ensure (fun _ => false) c).events) =
    some [.cycle (.given 5), .grafted (.given 6) 65 .root, .grafted (.given 5) 66 65] := by
  decide +kernel

end LayerTree

end Glossary
