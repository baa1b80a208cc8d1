import Glossary.Proofs.Lexicon.Run

/-!
# How many layers there can be

Layers of objects that are gone stay until the number of layers has reached a bound.  Then they are
removed, and the bound is set to twice the number of those that are left.  Each time an object is
given a layer this is looked after first, so that the number of layers is below the bound before new
ones are made.

If no turn of a run makes more than `made` layers and no more than `left` are left whenever layers
are removed, the bound never exceeds `max 64 (2 * left)`.  The layers are therefore never more than
that and the layers of one turn, less one.
-/

namespace Glossary

namespace LayerTree

variable {t : LayerTree} {ended : Lease → Bool} {c : Chain} {made left : Nat}

/-- How many layers are made when an object is given a layer. -/
def grafts (t : LayerTree) (ended : Lease → Bool) (c : Chain) : Nat :=
  ((t.tidy ended).survey [] c.links).pending.length

lemma pruneAt_graftAll (t : LayerTree) (parent : LayerId) (xs : List Link) :
    (t.graftAll parent xs).state.pruneAt = t.pruneAt := by
  induction xs generalizing t parent with
  | nil => rfl
  | cons x rest ih => exact ih (t.graft x parent) t.nextId

lemma count_ensure (t : LayerTree) (ended : Lease → Bool) (c : Chain) :
    (t.ensure ended c).state.count = (t.tidy ended).count + t.grafts ended c :=
  count_graftAll _ _ _

lemma pruneAt_ensure (t : LayerTree) (ended : Lease → Bool) (c : Chain) :
    (t.ensure ended c).state.pruneAt = (t.tidy ended).pruneAt :=
  pruneAt_graftAll _ _ _

/-- A tidied tree has fewer layers than make pruning due. -/
lemma count_tidy_lt (t : LayerTree) (ended : Lease → Bool) :
    (t.tidy ended).count < (t.tidy ended).pruneAt := by
  rw [tidy]
  split
  · rw [pruneAt_prune]
    omega
  · next hdue =>
    simp only [pruneDue, decide_eq_true_eq] at hdue
    omega

/-- The number of layers and the bound for it, when at most `made` layers are made at a time and at
most `left` are left by pruning. -/
structure Limited (made left : Nat) (t : LayerTree) : Prop where
  /-- Pruning is due in time. -/
  bound : t.pruneAt ≤ max 64 (2 * left)
  /-- There are not many more layers than that. -/
  count : t.count ≤ max 64 (2 * left) + made - 1

lemma limited_start (made left : Nat) (root : ObjectId) : (start root).Limited made left where
  bound := Nat.le_max_left _ _
  count := by
    simp only [LayerTree.count, start, List.length_singleton]
    omega

lemma Limited.pruneAt_tidy (h : t.Limited made left)
    (hleft : t.pruneDue = true → (t.prune ended).count ≤ left) :
    (t.tidy ended).pruneAt ≤ max 64 (2 * left) := by
  rw [tidy]
  split
  · next hdue =>
    have := hleft hdue
    rw [pruneAt_prune]
    omega
  · exact h.bound

/-- An object is given a layer. -/
lemma Limited.ensure (h : t.Limited made left) (hmade : t.grafts ended c ≤ made)
    (hleft : t.pruneDue = true → (t.prune ended).count ≤ left) :
    (t.ensure ended c).state.Limited made left := by
  have hbound := h.pruneAt_tidy hleft
  refine ⟨?_, ?_⟩
  · rw [pruneAt_ensure]
    exact hbound
  · -- the layers were below the bound before the new ones were made
    have hbelow := t.count_tidy_lt ended
    rw [count_ensure]
    omega

lemma Limited.setEntries (h : t.Limited made left) (i : LayerId) (e : Entries) :
    (t.setEntries i e).Limited made left where
  bound := h.bound
  count := by
    rw [count_setEntries]
    exact h.count

end LayerTree

namespace Lexicon

variable {x : Lexicon} {ended : Lease → Bool} {deed : Deed} {made left : Nat}

/-- No turn of a run makes more than `made` layers, and no more than `left` layers are left in a
turn in which layers are removed. -/
def Within (made left : Nat) (x : Lexicon) : List Turn → Prop
  | [] => True
  | u :: rest =>
    (∀ c ∈ u.deed.chain?, x.tree.grafts u.ended c ≤ made ∧
      (x.tree.pruneDue = true → (x.tree.prune u.ended).count ≤ left)) ∧
      (x.perform u.ended u.deed).1.Within made left rest

instance decidableWithin (made left : Nat) :
    (x : Lexicon) → (turns : List Turn) → Decidable (x.Within made left turns)
  | _, [] => .isTrue trivial
  | x, u :: rest =>
    have := decidableWithin made left (x.perform u.ended u.deed).1 rest
    inferInstanceAs (Decidable (_ ∧ _))

/-- One turn keeps to the limit. -/
lemma limited_perform (h : x.tree.Limited made left)
    (hwithin : ∀ c ∈ deed.chain?, x.tree.grafts ended c ≤ made ∧
      (x.tree.pruneDue = true → (x.tree.prune ended).count ≤ left)) :
    (x.perform ended deed).1.tree.Limited made left := by
  cases hc : deed.chain? with
  | none =>
    rw [perform_of_chain?_eq_none hc]
    exact h
  | some c =>
    obtain ⟨hmade, hleft⟩ := hwithin c hc
    have hensure := h.ensure hmade hleft
    rcases perform_tree x ended hc with htree | ⟨e, htree⟩
    · rw [htree]
      exact hensure
    · rw [htree]
      exact hensure.setEntries _ e

/-- A run keeps to the limit after each of its turns. -/
lemma limited_after {before turns : List Turn} (h : x.tree.Limited made left)
    (hwithin : x.Within made left turns) (hbefore : before <+: turns) :
    (x.after before).tree.Limited made left := by
  induction before generalizing x turns with
  | nil => exact h
  | cons u before ih =>
    obtain ⟨rest, rfl⟩ := hbefore
    exact ih (limited_perform h hwithin.1) hwithin.2 (List.prefix_append before rest)

/-- **The number of layers stays within limits.**  If no turn of a run makes more than `made`
layers, and no more than `left` are left whenever layers are removed, there are after each turn at
most `max 64 (2 * left) + made - 1` layers.  And whenever an object is to be given a layer, there
are fewer layers than make pruning due once that was looked after. -/
theorem count_le_of_within (root : ObjectId) (aliases : AliasTable) (made left : Nat)
    (turns : List Turn) (h : (Lexicon.start root aliases).state.Within made left turns) :
    (∀ before, before <+: turns → ((Lexicon.start root aliases).state.after before).tree.count ≤
      max 64 (2 * left) + made - 1) ∧
    ∀ before u rest c, turns = before ++ u :: rest → u.deed.chain? = some c →
      let t := ((Lexicon.start root aliases).state.after before).tree.tidy u.ended
      t.count < t.pruneAt := by
  refine ⟨fun before hbefore => ?_, fun before u rest c _ _ => ?_⟩
  · exact (limited_after (LayerTree.limited_start made left root) h hbefore).count
  · exact LayerTree.count_tidy_lt _ u.ended

/-- A run in which objects come and go: each is given a layer, and its lease ends before the next
one comes. -/
def churn (n : Nat) : List Turn :=
  (List.range n).map fun i =>
    ⟨fun k => decide (k ≤ i), .ensure ⟨⟨.minted (i + 1), some (i + 1)⟩, [⟨.minted 0, some 0⟩]⟩⟩

theorem count_le_of_within_churn :
    (Lexicon.start (.minted 0) .empty).state.Within 1 1 (churn 150) ∧
    ((Lexicon.start (.minted 0) .empty).state.after (churn 150)).tree.count ≤ 64 := by
  have h : (Lexicon.start (.minted 0) .empty).state.Within 1 1 (churn 150) := by decide +kernel
  exact ⟨h, (count_le_of_within (.minted 0) .empty 1 1 (churn 150) h).1 _ (List.prefix_refl _)⟩

-- the limit is reached before layers are removed
example : ((Lexicon.start (.minted 0) .empty).state.after (churn 63)).tree.count = 64 ∧
    ((Lexicon.start (.minted 0) .empty).state.after (churn 64)).tree.count = 2 := by
  decide +kernel

end Lexicon

end Glossary
