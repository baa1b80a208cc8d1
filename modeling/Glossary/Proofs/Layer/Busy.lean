import Glossary.Proofs.Layer.Graft

/-!
# Trees without idle layers

A layer is idle if the lease of its owner has ended and no layer falls back to it.  Where no layer is
idle, pruning removes nothing.  This stays so as long as layers are only given to objects whose
leases have not ended: other layers may be made on the way, for objects of the chain, but each of
them has the next one on top.
-/

namespace Glossary

namespace LayerTree

variable {root : ObjectId} {ended : Lease → Bool} {t : LayerTree} {parent : LayerId} {c : Chain}

/-- No layer is idle. -/
def Busy (ended : Lease → Bool) (t : LayerTree) : Prop := ∀ l ∈ t.layers, l.isIdle ended = false

lemma busy_start (ended : Lease → Bool) (root : ObjectId) : (start root).Busy ended := by
  intro l hl
  obtain rfl := List.mem_singleton.1 hl
  rfl

/-! ## Pruning -/

lemma keep_eq_self {ls : List Layer} (h : ∀ l ∈ ls, l.isIdle ended = false) :
    keep ended [] ls = ls := by
  induction ls with
  | nil => rfl
  | cons l older ih =>
    obtain ⟨hl, holder⟩ := List.forall_mem_cons.1 h
    have hrelease : l.release (List.count l.id []) = l := rfl
    simp only [keep, hrelease, hl, Bool.false_eq_true, if_false, ih holder]

/-- Pruning a tree without idle layers sets the bound for the next time, and does nothing else. -/
lemma Busy.prune_eq (h : t.Busy ended) (hwf : t.WellFormed root) :
    t.prune ended = { t with pruneAt := max leastPruneAt (2 * t.count) } := by
  have howners : (t.owners.filter fun r => t.layers.any (·.id = r.2)) = t.owners := by
    refine List.filter_eq_self.2 fun r hr => ?_
    obtain ⟨l, hl, hid, -⟩ := (hwf.owned r.1 r.2).1 hr
    exact List.any_eq_true.2 ⟨l, hl, decide_eq_true hid⟩
  rw [prune]
  simp only [keep_eq_self h, howners, count]

lemma Busy.tidy_eq (h : t.Busy ended) (hwf : t.WellFormed root) :
    ∃ n, t.tidy ended = { t with pruneAt := n } := by
  rw [tidy]
  split
  · exact ⟨_, h.prune_eq hwf⟩
  · exact ⟨t.pruneAt, rfl⟩

/-! ## Growing -/

/-- When a layer is grafted onto the only one that may be idle, the new one is the only one that may
be idle. -/
lemma idle_graft (h : ∀ l ∈ t.layers, l.isIdle ended = true → l.id = parent) (x : Link) :
    ∀ l ∈ (t.graft x parent).layers, l.isIdle ended = true → l.id = t.nextId := by
  intro m hm hidle
  rcases mem_graft.1 hm with rfl | ⟨l, hl, rfl⟩
  · rfl
  · by_cases hid : l.id = parent
    · simp [Layer.raise, hid, Layer.isIdle] at hidle
    · rw [Layer.raise, if_neg hid] at hidle
      exact absurd (h l hl hidle) hid

lemma idle_graftAll (h : ∀ l ∈ t.layers, l.isIdle ended = true → l.id = parent) (xs : List Link) :
    ∀ l ∈ (t.graftAll parent xs).state.layers, l.isIdle ended = true →
      l.id = (t.graftAll parent xs).result := by
  induction xs generalizing t parent with
  | nil => exact h
  | cons x rest ih => exact ih (idle_graft h x)

lemma Busy.grow (h : t.Busy ended) (hwf : t.WellFormed root)
    (hself : c.self.lease.any ended = false) : (t.grow c).state.Busy ended := by
  cases hlayer : t.layerOf? c.self.id with
  | some i =>
    rw [LayerTree.grow, Chain.links, survey_of_owned hlayer]
    exact h
  | none =>
    refine fun l hl => Bool.eq_false_iff.2 fun hidle => ?_
    -- only the layer of the object itself may be idle, and its lease has not ended
    obtain ⟨xs, hpending⟩ := pending_eq_concat hlayer
    have hid : l.id = (t.grow c).result := by
      refine idle_graftAll (fun m hm hidle' => ?_) _ l hl hidle
      rw [h m hm] at hidle'
      cases hidle'
    obtain ⟨hstate, hresult⟩ := graftAll_concat t (t.survey [] c.links).anchor xs c.self
    rw [← hpending] at hstate hresult
    have htop := layer?_graft_self (t.graftAll (t.survey [] c.links).anchor xs).state c.self
      (t.graftAll (t.survey [] c.links).anchor xs).result
    rw [← hstate, ← hresult] at htop
    have hlookup := (hwf.grow c).layer?_id hl
    rw [hid] at hlookup
    obtain rfl := Option.some.inj (hlookup.symm.trans htop)
    simp [Layer.isIdle, Layer.isEnded, hself] at hidle

lemma Busy.setEntries (h : t.Busy ended) (i : LayerId) (e : Entries) :
    (t.setEntries i e).Busy ended := by
  intro m hm
  obtain ⟨l, hl, -, -, -, hlease, hheirs⟩ := mem_setEntries hm
  rw [Layer.isIdle, Layer.isEnded, hlease, hheirs]
  exact h l hl

end LayerTree

end Glossary
