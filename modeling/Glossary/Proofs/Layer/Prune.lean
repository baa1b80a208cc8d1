import Glossary.Layer.Prune
import Glossary.Proofs.Layer.WellFormed

/-!
# What pruning keeps

Pruning goes over the layers once, newest first, and decides each layer by a count: what the
layer says of its heirs, less the heirs that were removed before it came up.  `Tallied` is the
state of that pass.  It says that the count is right for every layer, whether it was passed or
not, and one step of the pass preserves it, whichever way the step decides.  So a pruned tree is
well formed again.

Of everything else the pass keeps a simple account, `Thinned`: what stays is unchanged but for
its count, and what went had an owner whose lease has ended.
-/

namespace Glossary

namespace LayerTree

variable {root : ObjectId} {t : LayerTree} {ended : Lease → Bool} {freed : List LayerId}
  {kept older : List Layer} {l : Layer}

/-! ## The counts during the pass -/

/-- The state of the pass: `kept` are the layers that stay among those it has passed, `older` are
those still to come, and each number in `freed` is the parent of a layer that was removed. -/
structure Tallied (freed : List LayerId) (kept older : List Layer) : Prop where
  /-- The layers are listed newest first. -/
  newestFirst : (kept ++ older).Pairwise fun l m => m.id < l.id
  /-- A parent is older than its heirs, and it is still there. -/
  parents : ∀ l ∈ kept ++ older, ∀ p, l.parent = some p →
    p < l.id ∧ ∃ m ∈ kept ++ older, m.id = p
  /-- A layer that stays counts its heirs. -/
  settled : ∀ l ∈ kept, l.heirs = (kept ++ older).countP fun m => m.parent = some l.id
  /-- A layer still to come also counts the heirs that were removed. -/
  owing : ∀ l ∈ older,
    l.heirs = freed.count l.id + (kept ++ older).countP fun m => m.parent = some l.id

/-- Before the pass nothing was removed. -/
lemma WellFormed.tallied (h : t.WellFormed root) : Tallied [] [] t.layers where
  newestFirst := h.newestFirst
  parents := h.older
  settled := by simp
  owing := by
    intro l hl
    rw [List.nil_append, List.count_nil, Nat.zero_add]
    exact h.tally l hl

namespace Tallied

/-- All heirs of the layer that comes up are newer, so they were passed already. -/
lemma countP_head (h : Tallied freed kept (l :: older)) :
    ((kept ++ l :: older).countP fun m => m.parent = some l.id) =
      kept.countP fun m => m.parent = some l.id := by
  rw [List.countP_append, Nat.add_eq_left, List.countP_eq_zero]
  intro m hm hp
  have hlt := (h.parents m (List.mem_append_right _ hm) l.id (by simpa using hp)).1
  have horder := (List.pairwise_append.1 h.newestFirst).2.1
  rcases List.mem_cons.1 hm with rfl | hm
  · exact Nat.lt_irrefl _ hlt
  · exact Nat.lt_asymm hlt ((List.pairwise_cons.1 horder).1 m hm)

/-- The count of the layer that comes up covers the heirs that were removed. -/
lemma count_le (h : Tallied freed kept (l :: older)) : freed.count l.id ≤ l.heirs := by
  rw [h.owing l List.mem_cons_self]
  exact Nat.le_add_right _ _

/-- What is left of its count is the number of heirs that stay. -/
lemma heirs_release (h : Tallied freed kept (l :: older)) :
    (l.release (freed.count l.id)).heirs = kept.countP fun m => m.parent = some l.id := by
  rw [Layer.release, h.owing l List.mem_cons_self, h.countP_head, Nat.add_sub_cancel_left]

/-- A step of the pass that removes a layer. -/
lemma drop (h : Tallied freed kept (l :: older))
    (hnone : (kept.countP fun m => m.parent = some l.id) = 0) :
    Tallied (l.parent.toList ++ freed) kept older where
  newestFirst := by
    refine h.newestFirst.sublist ?_
    exact (List.sublist_cons_self l older).append_left kept
  parents := by
    intro m hm p hp
    have hm' : m ∈ kept ++ l :: older := by
      rcases List.mem_append.1 hm with hm | hm
      · exact List.mem_append_left _ hm
      · exact List.mem_append_right _ (List.mem_cons_of_mem _ hm)
    obtain ⟨hlt, q, hq, rfl⟩ := h.parents m hm' p hp
    refine ⟨hlt, q, ?_, rfl⟩
    rcases List.mem_append.1 hq with hq | hq
    · exact List.mem_append_left _ hq
    rcases List.mem_cons.1 hq with rfl | hq
    · -- nothing falls back to the layer that is removed
      have hzero := h.countP_head.trans hnone
      exact absurd (by simpa using hp) (List.countP_eq_zero.1 hzero m hm')
    · exact List.mem_append_right _ hq
  settled := by
    intro m hm
    rw [h.settled m (by simpa using hm), List.countP_append, List.countP_append,
      List.countP_cons_of_neg]
    -- a layer that stays is newer than the one removed, so it is not the parent of that one
    intro hp
    have hlt := (h.parents l (List.mem_append_right _ List.mem_cons_self) m.id
      (by simpa using hp)).1
    have horder := (List.pairwise_append.1 h.newestFirst).2.2 m hm l List.mem_cons_self
    exact Nat.lt_asymm hlt horder
  owing := by
    intro m hm
    rw [h.owing m (List.mem_cons_of_mem _ hm), List.countP_append, List.countP_append,
      List.count_append, List.countP_cons]
    cases hp : l.parent with
    | none => simp
    | some p =>
      by_cases hpm : p = m.id
      · subst hpm
        simp only [Option.toList_some, List.count_singleton_self, decide_true, if_true]
        omega
      · simp [hpm]

/-- A step of the pass that keeps a layer. -/
lemma keep (h : Tallied freed kept (l :: older)) :
    Tallied freed (kept ++ [l.release (freed.count l.id)]) older := by
  have hpermute : ∀ (q : Layer → Bool), q (l.release (freed.count l.id)) = q l →
      ((kept ++ [l.release (freed.count l.id)]) ++ older).countP q =
        (kept ++ l :: older).countP q := by
    intro q hq
    simp [List.countP_append, List.countP_cons, hq]
  -- the layer goes over from `older` to `kept` with its count settled, and all else stays
  refine ⟨?_, ?_, ?_, ?_⟩
  · have horder := h.newestFirst
    simp only [List.append_assoc, List.singleton_append, List.pairwise_append,
      List.pairwise_cons, List.mem_cons, forall_eq_or_imp] at horder ⊢
    exact horder
  · intro m hm p hp
    have : ∃ m' ∈ kept ++ l :: older, m'.id = m.id ∧ m'.parent = m.parent := by
      simp only [List.append_assoc, List.singleton_append, List.mem_append, List.mem_cons] at hm
      rcases hm with hm | rfl | hm
      · exact ⟨m, by simp [hm], rfl, rfl⟩
      · exact ⟨l, by simp, rfl, rfl⟩
      · exact ⟨m, by simp [hm], rfl, rfl⟩
    obtain ⟨m', hm', hid, hpar⟩ := this
    obtain ⟨hlt, q, hq, rfl⟩ := h.parents m' hm' p (hpar.trans hp)
    refine ⟨hid ▸ hlt, ?_⟩
    simp only [List.mem_append, List.mem_cons] at hq
    rcases hq with hq | rfl | hq
    · exact ⟨q, by simp [hq], rfl⟩
    · exact ⟨q.release (freed.count q.id), by simp, rfl⟩
    · exact ⟨q, by simp [hq], rfl⟩
  · intro m hm
    rw [hpermute (fun k => k.parent = some m.id) rfl]
    rcases List.mem_append.1 hm with hm | hm
    · exact h.settled m hm
    · obtain rfl := List.mem_singleton.1 hm
      exact h.heirs_release.trans h.countP_head.symm
  · intro m hm
    rw [hpermute (fun k => k.parent = some m.id) rfl]
    exact h.owing m (List.mem_cons_of_mem _ hm)

end Tallied

/-- The layers that stay count their heirs. -/
lemma tallied_keep (ended : Lease → Bool) (h : Tallied freed kept older) :
    Tallied [] (kept ++ keep ended freed older) [] := by
  induction older generalizing freed kept with
  | nil =>
    refine ⟨?_, ?_, ?_, by simp⟩
    · simpa [LayerTree.keep] using h.newestFirst
    · simpa [LayerTree.keep] using h.parents
    · simpa [LayerTree.keep] using h.settled
  | cons l rest ih =>
    simp only [LayerTree.keep]
    split
    · next hidle =>
      refine ih (h.drop ?_)
      rw [← h.heirs_release]
      simp only [Layer.isIdle, Bool.and_eq_true, decide_eq_true_eq] at hidle
      exact hidle.1
    · have := ih h.keep
      rwa [List.append_assoc, List.singleton_append] at this

/-- Nowhere in the pass is more taken from a count than the count holds. -/
def NeverShort (ended : Lease → Bool) (freed : List LayerId) : List Layer → Prop
  | [] => True
  | l :: older =>
    freed.count l.id ≤ l.heirs ∧
      NeverShort ended
        (if (l.release (freed.count l.id)).isIdle ended then l.parent.toList ++ freed
          else freed) older

lemma Tallied.neverShort (h : Tallied freed kept older) : NeverShort ended freed older := by
  induction older generalizing freed kept with
  | nil => trivial
  | cons l rest ih =>
    refine ⟨h.count_le, ?_⟩
    split
    · next hidle =>
      refine ih (h.drop ?_)
      rw [← h.heirs_release]
      simp only [Layer.isIdle, Bool.and_eq_true, decide_eq_true_eq] at hidle
      exact hidle.1
    · exact ih h.keep

/-! ## Which layers stay -/

/-- A layer that stays is unchanged but for its count. -/
lemma mem_keep {ls : List Layer} {m : Layer} (hm : m ∈ keep ended freed ls) :
    ∃ l ∈ ls, ∃ n, m = { l with heirs := n } := by
  induction ls generalizing freed with
  | nil => simp [keep] at hm
  | cons l rest ih =>
    simp only [keep] at hm
    split at hm
    · obtain ⟨q, hq, n, rfl⟩ := ih hm
      exact ⟨q, List.mem_cons_of_mem _ hq, n, rfl⟩
    · rcases List.mem_cons.1 hm with rfl | hm
      · exact ⟨l, List.mem_cons_self, _, rfl⟩
      · obtain ⟨q, hq, n, rfl⟩ := ih hm
        exact ⟨q, List.mem_cons_of_mem _ hq, n, rfl⟩

/-- A layer stays as long as the lease of its owner has not ended. -/
lemma exists_mem_keep (freed : List LayerId) {ls : List Layer} (hl : l ∈ ls)
    (hrunning : l.isEnded ended = false) : ∃ m ∈ keep ended freed ls, m.id = l.id := by
  induction ls generalizing freed with
  | nil => cases hl
  | cons a rest ih =>
    simp only [keep]
    split
    · next hidle =>
      rcases List.mem_cons.1 hl with rfl | hl
      · simp only [Layer.isIdle, Bool.and_eq_true] at hidle
        exact absurd (hidle.2.symm.trans hrunning) (by simp)
      · exact ih _ hl
    · rcases List.mem_cons.1 hl with rfl | hl
      · exact ⟨_, List.mem_cons_self, rfl⟩
      · obtain ⟨m, hm, hid⟩ := ih freed hl
        exact ⟨m, List.mem_cons_of_mem _ hm, hid⟩

/-- One tree comes from another by removing layers whose owners' leases have ended. -/
structure Thinned (ended : Lease → Bool) (t t' : LayerTree) : Prop where
  /-- What stays is unchanged but for its count. -/
  stays : ∀ i m, t'.layer? i = some m → ∃ l n, t.layer? i = some l ∧ m = { l with heirs := n }
  /-- What went had an owner whose lease has ended. -/
  gone : ∀ i l, t.layer? i = some l → t'.layer? i = none → l.isEnded ended = true
  /-- The next number stays the same. -/
  nextId : t'.nextId = t.nextId

lemma Thinned.refl (ended : Lease → Bool) (t : LayerTree) : Thinned ended t t where
  stays := fun _ m hm => ⟨m, m.heirs, hm, rfl⟩
  gone := by
    intro i l hl hn
    rw [hl] at hn
    cases hn
  nextId := rfl

lemma layers_prune (ended : Lease → Bool) (t : LayerTree) :
    (t.prune ended).layers = keep ended [] t.layers := rfl

lemma pruneAt_prune (t : LayerTree) (ended : Lease → Bool) :
    (t.prune ended).pruneAt = max 64 (2 * (t.prune ended).count) := rfl

lemma WellFormed.prune (h : t.WellFormed root) : (t.prune ended).WellFormed root := by
  have hkeep : Tallied [] (keep ended [] t.layers) [] := by
    simpa using tallied_keep ended h.tallied
  refine ⟨?_, ?_, ?_, ?_, ?_, ?_, ?_, ?_⟩
  · simpa [layers_prune] using hkeep.newestFirst
  · intro m hm
    obtain ⟨l, hl, n, rfl⟩ := mem_keep hm
    exact h.fresh l hl
  · -- the root layer has no lease, so it stays
    obtain ⟨l, hl, hi, ho, hle⟩ := h.base
    have hrunning : l.isEnded ended = false := by simp [Layer.isEnded, hle]
    obtain ⟨m, hm, hid⟩ := exists_mem_keep [] hl hrunning
    obtain ⟨q, hq, n, rfl⟩ := mem_keep hm
    obtain rfl := eq_of_id_eq h.newestFirst hq hl hid
    exact ⟨_, hm, hi, ho, hle⟩
  · intro m hm
    obtain ⟨l, hl, n, rfl⟩ := mem_keep hm
    exact h.top l hl
  · simpa [layers_prune] using hkeep.parents
  · simpa [layers_prune] using hkeep.settled
  · -- a row of `owners` stays exactly if its layer does
    intro o i
    simp only [LayerTree.prune, List.mem_filter, List.any_eq_true, decide_eq_true_eq, h.owned]
    constructor
    · rintro ⟨⟨l, hl, rfl, rfl⟩, m, hm, hid⟩
      refine ⟨m, hm, hid, ?_⟩
      obtain ⟨q, hq, n, rfl⟩ := mem_keep hm
      rw [eq_of_id_eq h.newestFirst hq hl hid]
    · rintro ⟨m, hm, rfl, rfl⟩
      refine ⟨?_, m, hm, rfl⟩
      obtain ⟨q, hq, n, rfl⟩ := mem_keep hm
      exact ⟨q, hq, rfl, rfl⟩
  · intro m hm m' hm' ho
    obtain ⟨q, hq, n, rfl⟩ := mem_keep hm
    obtain ⟨q', hq', n', rfl⟩ := mem_keep hm'
    exact h.single q hq q' hq' ho

lemma WellFormed.thinned_prune (h : t.WellFormed root) : Thinned ended t (t.prune ended) where
  stays := by
    intro i m hm
    have hid := id_of_layer? hm
    obtain ⟨l, hl, n, rfl⟩ := mem_keep (mem_of_layer? hm)
    exact ⟨l, n, h.layer?_eq_some_iff.2 ⟨hl, hid⟩, rfl⟩
  gone := by
    intro i l hl hn
    cases hended : l.isEnded ended with
    | true => rfl
    | false =>
      obtain ⟨m, hm, hid⟩ := exists_mem_keep [] (mem_of_layer? hl) hended
      exact absurd (hid.trans (id_of_layer? hl)) (layer?_eq_none_iff.1 hn m hm)
  nextId := rfl

/-! ## What can be read from the layers that stay -/

section Thinned

variable {t' : LayerTree} {i : LayerId} {o : ObjectId}

/-- A key is resolved as before from every layer that stays. -/
lemma Thinned.resolve?_eq (hthin : Thinned ended t t') (h : t.WellFormed root)
    (h' : t'.WellFormed root) {l : Layer} (hl : t'.layer? i = some l) (k : Key) :
    t'.resolve? i k = t.resolve? i k := by
  refine (h'.resolve?_eq_of_stays h (fun j m hm => ?_) k i l hl).symm
  obtain ⟨q, n, hq, rfl⟩ := hthin.stays j m hm
  exact ⟨q.heirs, hq⟩

/-- An object has no layer that it did not have before. -/
lemma Thinned.layerOf?_of_eq_none (hthin : Thinned ended t t') (h : t.WellFormed root)
    (h' : t'.WellFormed root) (ho : t.layerOf? o = none) : t'.layerOf? o = none := by
  refine h'.layerOf?_eq_none_iff.2 fun m hm => ?_
  obtain ⟨l, n, hl, rfl⟩ := hthin.stays m.id m (h'.layer?_id hm)
  exact h.layerOf?_eq_none_iff.1 ho l (mem_of_layer? hl)

/-- An object has its layer as long as the layer stays. -/
lemma Thinned.layerOf?_of_eq_some (hthin : Thinned ended t t') (h : t.WellFormed root)
    (h' : t'.WellFormed root) (ho : t.layerOf? o = some i) {m : Layer}
    (hm : t'.layer? i = some m) : t'.layerOf? o = some i := by
  obtain ⟨l, hl, rfl⟩ := h.layer?_of_layerOf? ho
  obtain ⟨l', n, hl', rfl⟩ := hthin.stays i m hm
  rw [hl] at hl'
  obtain rfl := Option.some.inj hl'
  exact (h'.layerOf?_owner hm :)

end Thinned

/-! ## Pruning if it is due -/

lemma WellFormed.tidy (h : t.WellFormed root) (ended : Lease → Bool) :
    (t.tidy ended).WellFormed root := by
  rw [LayerTree.tidy]
  split
  · exact h.prune
  · exact h

lemma WellFormed.thinned_tidy (h : t.WellFormed root) (ended : Lease → Bool) :
    Thinned ended t (t.tidy ended) := by
  rw [LayerTree.tidy]
  split
  · exact h.thinned_prune
  · exact .refl ended t

end LayerTree

end Glossary
