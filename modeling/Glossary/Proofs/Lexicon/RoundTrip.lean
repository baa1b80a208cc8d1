import Glossary.Proofs.Lexicon.Pairing

/-!
# There and back through the layers

In a layer names are paired one to one, so a name leads to another one and from there back to
itself.  Through several layers it is not so.  A layer hides what is behind it for each name and
each direction by itself, and the way back may end at a layer that the way there passed, where the
second name is paired with a third.

`Reachable.round_trip` says that this is the only exception, and that there always is a way back.
The way there passed a nearer layer because the first name has no entry in it, so that layer cannot
lead back to the first name; and the layer where the way there ended has the pair, so the way back
does not go farther.
-/

namespace Glossary

namespace Entries

variable {e : Entries}

/-- Both entries of a pair are there, of which the one in the given direction leads from the first
name to the second. -/
def Joins (e : Entries) (d : Direction) (language name value : String) : Prop :=
  e.get? ⟨d, language, name⟩ = some value ∧ e.get? ⟨d.opposite, language, value⟩ = some name

lemma Paired.get?_eq_some_iff (h : e.Paired) (d : Direction) (language name value : String) :
    e.get? ⟨d, language, name⟩ = some value ↔
      e.get? ⟨d.opposite, language, value⟩ = some name := by
  cases d with
  | forward => exact h language name value
  | reverse => exact (h language value name).symm

/-- An entry is there with its pair. -/
lemma Paired.joins (h : e.Paired) {d : Direction} {language name value : String}
    (hentry : e.get? ⟨d, language, name⟩ = some value) : e.Joins d language name value :=
  ⟨hentry, (h.get?_eq_some_iff d language name value).1 hentry⟩

end Entries

namespace LayerTree

variable {root : ObjectId} {t : LayerTree} {i : LayerId} {k : Key}

/-- A key that a layer on the way has is resolved there, or in a nearer layer. -/
lemma resolve?_of_lineage_eq {nearer farther : List Layer} {m : Layer} {v : String}
    (hsplit : t.lineage i = nearer ++ m :: farther) (hm : m.entries.get? k = some v) :
    (t.resolve? i k = some ⟨m.id, v⟩ ∧ ∀ n ∈ nearer, n.entries.get? k = none) ∨
      ∃ n ∈ nearer, ∃ w, n.entries.get? k = some w ∧ t.resolve? i k = some ⟨n.id, w⟩ := by
  have hresolve : t.resolve? i k =
      (nearer.findSome? fun l => (l.entries.get? k).map (Supply.mk l.id)).or
        (some ⟨m.id, v⟩) := by
    rw [resolve?, hsplit, List.findSome?_append, List.findSome?_cons, hm, Option.map_some]
  cases hnearer : nearer.findSome? fun l => (l.entries.get? k).map (Supply.mk l.id) with
  | none =>
    rw [hnearer, Option.none_or] at hresolve
    refine Or.inl ⟨hresolve, fun n hn => ?_⟩
    exact Option.map_eq_none_iff.1 (List.findSome?_eq_none_iff.1 hnearer n hn)
  | some s =>
    rw [hnearer, Option.some_or] at hresolve
    obtain ⟨n, hn, hs⟩ := List.exists_of_findSome?_eq_some hnearer
    obtain ⟨w, hw, rfl⟩ := Option.map_eq_some_iff.1 hs
    exact Or.inr ⟨n, hn, w, hw, hresolve⟩

/-- No number occurs twice on the way to the root. -/
lemma WellFormed.id_ne_of_lineage (h : t.WellFormed root) {nearer farther : List Layer} {m : Layer}
    (hsplit : t.lineage i = nearer ++ m :: farther) : ∀ n ∈ nearer, n.id ≠ m.id := by
  have horder := h.newestFirst.sublist (lineageIn_sublist t.layers (some i))
  rw [← lineage, hsplit] at horder
  intro n hn
  exact Nat.ne_of_gt ((List.pairwise_append.1 horder).2.2 n hn m List.mem_cons_self)

end LayerTree

namespace Lexicon

variable {root : ObjectId} {x : Lexicon} {i : LayerId} {l : Layer}

lemma Reachable.paired_of_lineage (h : Reachable root x) (hl : l ∈ x.tree.lineage i) :
    l.entries.Paired :=
  (h.allOneToOne l ((LayerTree.lineageIn_sublist x.tree.layers (some i)).subset hl)).paired

/-- **A name that leads to another leads back to itself, unless a nearer layer pairs the other name
with a third.**  If a name is resolved to another one that layer `u` supplies, the other name is
resolved in the opposite direction, to a name that layer `u` or a nearer one supplies.  It is the
first name exactly if layer `u` supplies it, and another name exactly if a nearer layer has the pair
of that name. -/
theorem Reachable.round_trip (h : Reachable root x) (i u : LayerId) (d : Direction)
    (language name value : String)
    (hthere : x.tree.resolve? i ⟨d, language, name⟩ = some ⟨u, value⟩) :
    ∃ nearer m farther, x.tree.FallsBack i (nearer ++ m :: farther) ∧ m.id = u ∧
      m.entries.Joins d language name value ∧
      ∃ v back, x.tree.resolve? i ⟨d.opposite, language, value⟩ = some ⟨v, back⟩ ∧
        (v = u ∨ ∃ n ∈ nearer, n.id = v) ∧
        (back = name ↔ v = u) ∧
        (back ≠ name ↔ ∃ n ∈ nearer, n.entries.Joins d language back value) := by
  have hwf := h.tree.wellFormed
  obtain ⟨l, hl⟩ := hwf.layer?_of_resolve? hthere
  obtain ⟨nearer, m, farther, hsplit, hid, hm, hpassed⟩ :=
    (x.tree.resolve?_eq_some_iff i _ u value).1 hthere
  have hwalk := hwf.fallsBack i l hl
  rw [hsplit] at hwalk
  have hpaired : ∀ n ∈ nearer ++ m :: farther, n.entries.Paired := by
    intro n hn
    exact h.paired_of_lineage (hsplit ▸ hn)
  have hjoins := (hpaired m (by simp)).joins hm
  refine ⟨nearer, m, farther, hwalk, hid, hjoins, ?_⟩
  rcases LayerTree.resolve?_of_lineage_eq hsplit hjoins.2 with
    ⟨hback, hnone⟩ | ⟨n, hn, back, hw, hback⟩
  · -- no nearer layer has the way back, so it begins where the way there ended
    refine ⟨u, name, hid ▸ hback, Or.inl rfl, by simp, ?_⟩
    refine ⟨fun hne => absurd rfl hne, ?_⟩
    rintro ⟨n, hn, -, hn'⟩
    rw [hnone n hn] at hn'
    cases hn'
  · have hpair : n.entries.Joins d language back value :=
      ⟨((hpaired n (by simp [hn])).get?_eq_some_iff d language back value).2 hw, hw⟩
    -- the way there passed the nearer layer, so the pair there is not that of the first name
    have hback_ne : back ≠ name := by
      rintro rfl
      have hno := hpassed n hn
      rw [hpair.1] at hno
      cases hno
    have hne : n.id ≠ u := hid ▸ hwf.id_ne_of_lineage hsplit n hn
    exact ⟨n.id, back, hback, Or.inr ⟨n, hn, rfl⟩, by simp [hback_ne, hne],
      fun _ => ⟨n, hn, hpair⟩, fun _ => hback_ne⟩

/-- A lexicon in which the root object and an object that delegates to it pair one canonical name
with different localized names. -/
def overriding : Lexicon :=
  let top : Link := ⟨.minted 0, some 0⟩
  let x := (start (.minted 0) .empty).state.add (fun _ => false) ⟨top, []⟩ "de" "los" "go"
  (x.state.add (fun _ => false) ⟨⟨.minted 1, some 1⟩, [top]⟩ "de" "lauf" "go").state

theorem Reachable.round_trip_overriding :
    Reachable (.minted 0) overriding ∧
    overriding.tree.resolve? 1 (.forward "de" "los") = some ⟨.root, "go"⟩ ∧
    ∃ v back, overriding.tree.resolve? 1 (.reverse "de" "go") = some ⟨v, back⟩ ∧
      (back = "los" ↔ v = .root) := by
  have h : Reachable (.minted 0) overriding :=
    ((Reachable.start .empty).add _ _ _ _ _).add _ _ _ _ _
  have hthere : overriding.tree.resolve? 1 (.forward "de" "los") = some ⟨.root, "go"⟩ := by
    decide +kernel
  obtain ⟨-, -, -, -, -, -, v, back, hback, -, hiff, -⟩ :=
    Reachable.round_trip h 1 .root .forward "de" "los" "go" hthere
  exact ⟨h, hthere, v, back, hback, hiff⟩

-- the way back ends at the nearer layer, with its own localized name
example : overriding.tree.resolve? 1 (.reverse "de" "go") = some ⟨1, "lauf"⟩ := by decide +kernel

end Lexicon

end Glossary
