import Glossary.Proofs.Layer.Succession
import Glossary.Proofs.Lexicon.Run

/-!
# The life of a layer

A layer comes into being with a number that was never given before, and it keeps its owner and its
parent as long as it is there.  It gets lost only when layers are removed, and only if the lease of
its owner has ended and nothing that is left falls back to it.  After that its number leads nowhere,
for ever.

`Life` says this of a row of moments, in which any two may be compared, however far apart.  The
history of a run is such a row: it has a moment for every single step, and the tree after each turn
is among them.
-/

namespace Glossary

namespace LayerTree

variable {root : ObjectId} {t u : LayerTree} {i : LayerId} {l : Layer}

/-- A number leads nowhere: there is no layer with it, no object has it or is given it, no chain
leads to it, and no key is found under it. -/
structure Vacant (t : LayerTree) (i : LayerId) : Prop where
  /-- There is no layer with the number. -/
  absent : t.layer? i = none
  /-- It is the layer of no object. -/
  unowned : ∀ o, t.layerOf? o ≠ some i
  /-- It is the nearest layer to no object. -/
  unreached : ∀ c, t.nearest c ≠ i
  /-- It is given to no object. -/
  ungiven : ∀ ended c, (t.ensure ended c).result ≠ i
  /-- It has no entries. -/
  blank : ∀ k, t.own? i k = none
  /-- No key is resolved from it. -/
  unresolved : ∀ k, t.resolve? i k = none

/-- A number that was given before and has no layer leads nowhere. -/
lemma WellFormed.vacant (h : t.WellFormed root) (hi : i < t.nextId) (hn : t.layer? i = none) :
    t.Vacant i := by
  have hno : ¬ ∃ l, t.layer? i = some l := by
    rintro ⟨l, hl⟩
    rw [hn] at hl
    cases hl
  refine ⟨hn, ?_, ?_, ?_, ?_, h.resolve?_of_layer?_eq_none hn⟩
  · intro o ho
    obtain ⟨l, hl, -⟩ := h.layer?_of_layerOf? ho
    exact hno ⟨l, hl⟩
  · rintro c rfl
    rw [nearest_eq_anchor] at hno
    exact hno (h.anchor_exists c.links)
  · -- what an object is given is there afterwards, and nothing comes back under an old number
    rintro ended c rfl
    obtain ⟨l, hl, -⟩ := h.layer?_ensure ended c
    rw [(h.later_ensure ended c).layer?_eq_none hi hn] at hl
    cases hl
  · intro k
    rw [own?, entriesOf, hn]
    rfl

/-- What holds of layers in the course of time. -/
structure Life (history : List Moment) : Prop where
  /-- A layer that is new at a moment has a greater number than any that was there before. -/
  fresh : ∀ (q : Nat) (a b : Moment), history[q]? = some a → history[q + 1]? = some b →
    ∀ j m, b.tree.layer? j = some m → a.tree.layer? j = none →
    ∀ (p : Nat) (e : Moment) i l, p ≤ q → history[p]? = some e → e.tree.layer? i = some l → i < j
  /-- A layer keeps its owner, its parent and its lease. -/
  steady : ∀ (p q : Nat) (a b : Moment), p ≤ q → history[p]? = some a → history[q]? = some b →
    ∀ i (l m : Layer), a.tree.layer? i = some l → b.tree.layer? i = some m →
    m.owner = l.owner ∧ m.parent = l.parent ∧ m.lease = l.lease
  /-- A layer gets lost only when layers are removed, the lease of its owner has ended, and no layer
  that is left falls back to it. -/
  lost : ∀ (q : Nat) (a b : Moment), history[q]? = some a → history[q + 1]? = some b →
    ∀ i (l : Layer), a.tree.layer? i = some l → b.tree.layer? i = none →
    a.tree.pruneDue = true ∧ b.tree = a.tree.prune b.ended ∧
      (∃ k, l.lease = some k ∧ b.ended k = true) ∧
      ∀ j (m : Layer), b.tree.layer? j = some m → m.parent ≠ some i
  /-- The root layer is always there. -/
  base : ∀ (q : Nat) (a : Moment), history[q]? = some a → ∃ l, a.tree.layer? .root = some l
  /-- An object has its layer for as long as the lease of the layer has not ended. -/
  held : ∀ (p q : Nat) (a b : Moment), p ≤ q → history[p]? = some a → history[q]? = some b →
    ∀ o i (l : Layer), a.tree.layerOf? o = some i → a.tree.layer? i = some l →
    (∀ (r : Nat) (e : Moment), p < r → r ≤ q → history[r]? = some e → l.lease.any e.ended = false) →
    b.tree.layerOf? o = some i
  /-- The number of a layer that got lost leads nowhere from then on. -/
  spent : ∀ (p q r : Nat) (a b c : Moment), p ≤ q → q ≤ r →
    history[p]? = some a → history[q]? = some b → history[r]? = some c →
    ∀ i l, a.tree.layer? i = some l → b.tree.layer? i = none → c.tree.Vacant i

namespace Passes

variable {ms : List Moment} {a b c : Moment} {p q : Nat}

lemma wellFormed_getElem? (h : Passes t ms u) (hwf : t.WellFormed root) (ha : a.tree = t)
    (hb : (a :: ms)[q]? = some b) : b.tree.WellFormed root := by
  rcases List.mem_cons.1 (List.mem_of_getElem? hb) with rfl | hmem
  · exact ha ▸ hwf
  · exact (h.wellFormed hwf).1 b hmem

lemma later_getElem? (h : Passes t ms u) (hwf : t.WellFormed root) (ha : a.tree = t) (hpq : p ≤ q)
    (hb : (a :: ms)[p]? = some b) (hc : (a :: ms)[q]? = some c) : b.tree.Later c.tree := by
  obtain ⟨hfirst, hpairs⟩ := h.later hwf
  have hall : (a :: ms).Pairwise fun a b => a.tree.Later b.tree :=
    List.pairwise_cons.2 ⟨ha ▸ hfirst, hpairs⟩
  rcases Nat.lt_or_eq_of_le hpq with hlt | rfl
  · obtain ⟨hp, rfl⟩ := List.getElem?_eq_some_iff.1 hb
    obtain ⟨hq, rfl⟩ := List.getElem?_eq_some_iff.1 hc
    exact List.pairwise_iff_getElem.1 hall p q hp hq hlt
  · rw [hb] at hc
    obtain rfl := Option.some.inj hc
    exact .refl _

/-- A layer keeps its owner, its parent and its lease. -/
lemma steady (h : Passes t ms u) (hwf : t.WellFormed root) (ha : a.tree = t) (hpq : p ≤ q)
    (hb : (a :: ms)[p]? = some b) (hc : (a :: ms)[q]? = some c) {m : Layer}
    (hl : b.tree.layer? i = some l) (hm : c.tree.layer? i = some m) :
    m.owner = l.owner ∧ m.parent = l.parent ∧ m.lease = l.lease := by
  have hi := (h.wellFormed_getElem? hwf ha hb).lt_nextId hl
  obtain ⟨l', hl', hsame⟩ := (h.later_getElem? hwf ha hpq hb hc).stays i m hi hm
  rw [hl] at hl'
  obtain rfl := Option.some.inj hl'
  exact hsame

/-- A layer is there for as long as its lease has not ended. -/
lemma layer?_of_running (h : Passes t ms u) (hwf : t.WellFormed root) (ha : a.tree = t)
    (hpq : p ≤ q) (hb : (a :: ms)[p]? = some b) (hc : (a :: ms)[q]? = some c)
    (hl : b.tree.layer? i = some l)
    (hrunning : ∀ r e, p < r → r ≤ q → (a :: ms)[r]? = some e → l.lease.any e.ended = false) :
    ∃ m, c.tree.layer? i = some m := by
  induction hpq generalizing c with
  | refl =>
    rw [hb] at hc
    obtain rfl := Option.some.inj hc
    exact ⟨l, hl⟩
  | @step q hpq ih =>
    obtain ⟨d, hd⟩ : ∃ d, (a :: ms)[q]? = some d := by
      have hlt := (List.getElem?_eq_some_iff.1 hc).1
      exact ⟨_, List.getElem?_eq_getElem (Nat.lt_of_succ_lt hlt)⟩
    obtain ⟨m, hm⟩ := ih hd fun r e hpr hrq => hrunning r e hpr (Nat.le_succ_of_le hrq)
    cases hcm : c.tree.layer? i with
    | some m' => exact ⟨m', rfl⟩
    | none =>
      -- the layer got lost in the last step, so its lease had ended
      have hwf' := h.wellFormed_getElem? hwf ha hd
      obtain ⟨-, -, ⟨k, hk, hended⟩, -⟩ := (h.happens ha hd hc).lost hwf' hm hcm
      have hlease := (h.steady hwf ha hpq hb hd hl hm).2.2
      have hnot := hrunning (q + 1) c (Nat.lt_succ_of_le hpq) (Nat.le_refl _) hc
      rw [← hlease, hk, Option.any_some, hended] at hnot
      cases hnot

/-- Layers live in a row of moments as they should. -/
lemma life (h : Passes t ms u) (hwf : t.WellFormed root) (ha : a.tree = t) : Life (a :: ms) where
  fresh := by
    intro q b c hb hc j m hm hn p e i l hpq he hl
    have hi := (h.wellFormed_getElem? hwf ha he).lt_nextId hl
    have hj := (h.later_getElem? hwf ha (Nat.le_succ q) hb hc).nextId_le hm hn
    exact Nat.lt_of_lt_of_le hi (Nat.le_trans (h.later_getElem? hwf ha hpq he hb).nextId hj)
  steady := fun p q b c hpq hb hc i l m hl hm => h.steady hwf ha hpq hb hc hl hm
  lost := by
    intro q b c hb hc i l hl hn
    exact (h.happens ha hb hc).lost (h.wellFormed_getElem? hwf ha hb) hl hn
  base := by
    intro q b hb
    obtain ⟨l, hl, -⟩ := (h.wellFormed_getElem? hwf ha hb).layer?_root
    exact ⟨l, hl⟩
  held := by
    intro p q b c hpq hb hc o i l ho hl hrunning
    obtain ⟨m, hm⟩ := h.layer?_of_running hwf ha hpq hb hc hl hrunning
    obtain ⟨l', hl', rfl⟩ := (h.wellFormed_getElem? hwf ha hb).layer?_of_layerOf? ho
    rw [hl] at hl'
    obtain rfl := Option.some.inj hl'
    rw [← (h.steady hwf ha hpq hb hc hl hm).1]
    exact (h.wellFormed_getElem? hwf ha hc).layerOf?_owner hm
  spent := by
    intro p q r b c d hpq hqr hb hc hd i l hl hn
    have hi := (h.wellFormed_getElem? hwf ha hb).lt_nextId hl
    have hi' := Nat.lt_of_lt_of_le hi (h.later_getElem? hwf ha hpq hb hc).nextId
    have hlater := h.later_getElem? hwf ha hqr hc hd
    exact (h.wellFormed_getElem? hwf ha hd).vacant (Nat.lt_of_lt_of_le hi' hlater.nextId)
      (hlater.layer?_eq_none hi' hn)

end Passes

end LayerTree

namespace Lexicon

open LayerTree (Moment Passes)

variable {root : ObjectId} {x : Lexicon}

/-- The moments of a turn.  At the last the entries of the layer that was given may have changed. -/
def moments (x : Lexicon) (u : Turn) : List Moment :=
  match u.deed.chain? with
  | none => []
  | some c =>
    LayerTree.ensureMoments u.ended x.tree c ++ [⟨u.ended, (x.perform u.ended u.deed).1.tree⟩]

/-- The moments of a run after the first. -/
def course (x : Lexicon) : List Turn → List Moment
  | [] => []
  | u :: rest => x.moments u ++ (x.perform u.ended u.deed).1.course rest

/-- The moments of a run.  At the first nothing was asked yet and no lease has ended. -/
def history (x : Lexicon) (turns : List Turn) : List Moment :=
  ⟨fun _ => false, x.tree⟩ :: x.course turns

lemma passes_moments (h : x.tree.WellFormed root) (u : Turn) :
    Passes x.tree (x.moments u) (x.perform u.ended u.deed).1.tree := by
  rw [moments]
  cases hc : u.deed.chain? with
  | none =>
    rw [perform_of_chain?_eq_none hc]
    exact .done _
  | some c =>
    refine (h.passes_ensure u.ended c).append (.step ?_ (.done _))
    rcases perform_tree x u.ended hc with htree | ⟨e, htree⟩
    · rw [htree]
      exact .nothing
    · rw [htree]
      exact .write _ e

/-- The moments of a run lead to the tree after it. -/
lemma passes_course (h : x.tree.WellFormed root) (turns : List Turn) :
    Passes x.tree (x.course turns) (x.after turns).tree := by
  induction turns generalizing x with
  | nil => exact .done _
  | cons u rest ih =>
    have hturn := passes_moments h u
    exact hturn.append (ih (hturn.wellFormed h).2)

lemma course_append (x : Lexicon) (before rest : List Turn) :
    x.course (before ++ rest) = x.course before ++ (x.after before).course rest := by
  induction before generalizing x with
  | nil => rfl
  | cons u before ih =>
    rw [List.cons_append, course, course, ih, List.append_assoc]
    rfl

/-- **The life of a layer, over whole runs.**  In the history of every run new numbers are greater
than all before, layers keep their owners and parents, they get lost only when layers are removed,
their leases have ended and nothing that is left falls back to them, and the number of a layer that
got lost leads nowhere for ever.  The history misses nothing: it goes on in single steps, and the
tree after each turn is in it, where the moments of the turns before end. -/
theorem life_of_layers (root : ObjectId) (aliases : AliasTable) (turns : List Turn) :
    let x := (Lexicon.start root aliases).state
    LayerTree.Life (x.history turns) ∧
      Passes x.tree (x.course turns) (x.after turns).tree ∧
      ∀ before, before <+: turns →
        (x.history turns)[(x.course before).length]?.map (·.tree) = some (x.after before).tree := by
  intro x
  have hwf : x.tree.WellFormed root := LayerTree.wellFormed_start root
  refine ⟨(passes_course hwf turns).life hwf rfl, passes_course hwf turns, ?_⟩
  rintro before ⟨rest, rfl⟩
  rw [history, course_append]
  exact (passes_course hwf before).getElem?_length rfl _

-- sixty-three objects in a row are given layers, and their leases have ended when one more comes
example :
    let row : List Link := (List.range' 2 62).map fun i => ⟨.minted i, some i⟩
    let turns : List Turn :=
      [⟨fun _ => false, .ensure ⟨⟨.minted 1, some 1⟩, row⟩⟩,
        ⟨fun k => decide (k < 64), .ensure ⟨⟨.minted 64, some 64⟩, []⟩⟩]
    let history := (Lexicon.start (.minted 0) .empty).state.history turns
    history.map (·.tree.count) = [1, 1] ++ List.range' 2 63 ++ [64, 1, 2, 2] ∧
      history.getLast?.map (·.tree.layers.map (·.id)) = some [64, 0] := by
  decide +kernel

end Lexicon

end Glossary
