import Glossary.Proofs.Layer.Busy
import Glossary.Proofs.Layer.Reachable

/-!
# Which layers survive pruning

Pruning decides layer by layer, with a count.  What it comes to can be said without a count: a layer
survives exactly if some layer that rests on it, be it the layer itself, has an owner whose lease has
not ended.  A dead stretch of any length goes in one pass, and a dead layer below a living one stays.

One direction holds because the parent of a layer that stays is still there.  For the other, no layer
that stays is idle: either the lease of its owner is running, or a layer that stays falls back to it,
and that one is newer, so that going on like this must come to an end.
-/

namespace Glossary

lemma Layer.isEnded_eq_false_iff {ended : Lease → Bool} {l : Layer} :
    l.isEnded ended = false ↔ ∀ k, l.lease = some k → ended k = false := by
  cases hlease : l.lease with
  | none => simp [isEnded, hlease]
  | some k => simp [isEnded, hlease]

namespace LayerTree

variable {root : ObjectId} {ended : Lease → Bool} {t u : LayerTree} {i j p : LayerId} {l : Layer}

/-! ## Resting on a layer -/

/-- A layer rests on another one if going from parent to parent leads from the first to the second.
Every layer rests on itself. -/
inductive RestsOn (t : LayerTree) : LayerId → LayerId → Prop
  /-- A layer that is there rests on itself. -/
  | self {i : LayerId} {l : Layer} (hl : t.layer? i = some l) : RestsOn t i i
  /-- A layer rests on what its parent rests on. -/
  | parent {i p j : LayerId} {l : Layer} (hl : t.layer? i = some l) (hp : l.parent = some p)
    (h : RestsOn t p j) : RestsOn t i j

lemma RestsOn.trans {k : LayerId} (h : t.RestsOn i j) (h' : t.RestsOn j k) : t.RestsOn i k := by
  induction h with
  | self _ => exact h'
  | parent hl hp _ ih => exact .parent hl hp (ih h')

lemma RestsOn.layer?_right (h : t.RestsOn i j) : ∃ m, t.layer? j = some m := by
  induction h with
  | self hl => exact ⟨_, hl⟩
  | parent _ _ _ ih => exact ih

lemma WellFormed.restsOn_parent (h : t.WellFormed root) (hl : t.layer? i = some l)
    (hp : l.parent = some p) : t.RestsOn i p := by
  obtain ⟨-, m, hm⟩ := h.parent_exists hl hp
  exact .parent hl hp (.self hm)

/-- What holds of a layer whenever it holds of all layers that fall back to it holds of every
layer. -/
lemma WellFormed.climb (h : t.WellFormed root) {P : LayerId → Prop}
    (step : ∀ i l, t.layer? i = some l →
      (∀ j m, t.layer? j = some m → m.parent = some i → P j) → P i) :
    ∀ i l, t.layer? i = some l → P i := by
  -- the layers that fall back to a layer are newer, and there is a newest one
  suffices hbelow : ∀ n i l, t.nextId ≤ i + n → t.layer? i = some l → P i from
    fun i l hl => hbelow t.nextId i l (Nat.le_add_left _ _) hl
  intro n
  induction n with
  | zero =>
    intro i l hn hl
    exact absurd hn (Nat.not_le_of_lt (h.lt_nextId hl))
  | succ n ih =>
    intro i l hn hl
    refine step i l hl fun j m hm hp => ih j m ?_ hm
    calc
      t.nextId ≤ i + (n + 1) := hn
      _ = i + 1 + n := Nat.add_right_comm i n 1
      _ ≤ j + n := Nat.add_le_add_right (h.parent_exists hm hp).1 n

/-! ## What pruning leaves -/

/-- No layer that stays is idle. -/
lemma isIdle_of_mem_keep {freed : List LayerId} {ls : List Layer} :
    ∀ m ∈ keep ended freed ls, m.isIdle ended = false := by
  induction ls generalizing freed with
  | nil => simp [keep]
  | cons l older ih =>
    simp only [keep]
    split
    · exact ih
    · next hbusy => exact List.forall_mem_cons.2 ⟨Bool.eq_false_iff.2 hbusy, ih⟩

lemma busy_prune (ended : Lease → Bool) (t : LayerTree) : (t.prune ended).Busy ended :=
  isIdle_of_mem_keep

/-- A layer that is not idle, though the lease of its owner has ended, has another one on top. -/
lemma WellFormed.exists_heir (h : t.WellFormed root) (hl : t.layer? i = some l)
    (hbusy : l.isIdle ended = false) (hended : l.isEnded ended = true) :
    ∃ j m, t.layer? j = some m ∧ m.parent = some i := by
  have hheirs : l.heirs ≠ 0 := by
    intro hzero
    simp [Layer.isIdle, hzero, hended] at hbusy
  rw [h.tally l (mem_of_layer? hl), id_of_layer? hl] at hheirs
  obtain ⟨m, hm, hp⟩ := List.countP_pos_iff.1 (Nat.pos_of_ne_zero hheirs)
  exact ⟨m.id, m, h.layer?_id hm, by simpa using hp⟩

/-- Where no layer is idle, on every layer rests one whose owner's lease has not ended. -/
lemma Busy.exists_running (hbusy : t.Busy ended) (h : t.WellFormed root) :
    ∀ i l, t.layer? i = some l →
      ∃ j m, t.RestsOn j i ∧ t.layer? j = some m ∧ m.isEnded ended = false := by
  refine h.climb fun i l hl ih => ?_
  cases hended : l.isEnded ended with
  | false => exact ⟨i, l, .self hl, hl, hended⟩
  | true =>
    obtain ⟨j, m, hm, hp⟩ := h.exists_heir hl (hbusy l (mem_of_layer? hl)) hended
    obtain ⟨k, q, hrests, hq, hrunning⟩ := ih j m hm hp
    exact ⟨k, q, hrests.trans (h.restsOn_parent hm hp), hq, hrunning⟩

/-- What rests on a layer when others were removed rested on it before. -/
lemma Thinned.restsOn (hthin : Thinned ended t u) (h : u.RestsOn j i) : t.RestsOn j i := by
  induction h with
  | self hm =>
    obtain ⟨l, n, hl, rfl⟩ := hthin.stays _ _ hm
    exact .self hl
  | parent hm hp _ ih =>
    obtain ⟨l, n, hl, rfl⟩ := hthin.stays _ _ hm
    exact .parent hl hp ih

/-- A layer on which a layer rests that stays is still there itself. -/
lemma Thinned.layer?_of_restsOn (hthin : Thinned ended t u) (h : u.WellFormed root)
    (hrests : t.RestsOn j i) (hj : ∃ m, u.layer? j = some m) : ∃ m, u.layer? i = some m := by
  induction hrests with
  | self _ => exact hj
  | parent hl hp _ ih =>
    obtain ⟨m, hm⟩ := hj
    obtain ⟨l', n, hl', rfl⟩ := hthin.stays _ _ hm
    obtain rfl := Option.some.inj (hl.symm.trans hl')
    exact ih (h.parent_exists hm hp).2

/-- A layer stays exactly if one that rests on it has an owner whose lease has not ended. -/
lemma WellFormed.layer?_prune_iff (h : t.WellFormed root) (ended : Lease → Bool) (i : LayerId) :
    (∃ m, (t.prune ended).layer? i = some m) ↔
      ∃ j l, t.RestsOn j i ∧ t.layer? j = some l ∧ l.isEnded ended = false := by
  have hthin : Thinned ended t (t.prune ended) := h.thinned_prune
  constructor
  · rintro ⟨m, hm⟩
    obtain ⟨j, q, hrests, hq, hrunning⟩ := (busy_prune ended t).exists_running h.prune i m hm
    obtain ⟨l, n, hl, rfl⟩ := hthin.stays j q hq
    exact ⟨j, l, hthin.restsOn hrests, hl, hrunning⟩
  · rintro ⟨j, l, hrests, hl, hrunning⟩
    refine hthin.layer?_of_restsOn h.prune hrests ?_
    cases hj : (t.prune ended).layer? j with
    | some m => exact ⟨m, rfl⟩
    | none =>
      have hended := hthin.gone j l hl hj
      rw [hrunning] at hended
      cases hended

/-- Where no layer is idle, none is when fewer leases have ended. -/
lemma Busy.mono {ended' : Lease → Bool} (h : t.Busy ended)
    (hless : ∀ k, ended' k = true → ended k = true) : t.Busy ended' := by
  intro l hl
  refine Bool.eq_false_iff.2 fun hidle => ?_
  simp only [Layer.isIdle, Layer.isEnded, Bool.and_eq_true, Option.any_eq_true] at hidle
  obtain ⟨hheirs, k, hk, hended⟩ := hidle
  have hbusy := h l hl
  rw [Layer.isIdle, hheirs, Layer.isEnded, hk, Option.any_some, hless k hended] at hbusy
  cases hbusy

/-! ## The exact effect -/

/-- The exact effect of pruning, when those leases have ended. -/
structure PrunedTo (ended : Lease → Bool) (t u : LayerTree) : Prop where
  /-- A layer stays exactly if a layer that rests on it has an owner without a lease, or one whose
  lease has not ended. -/
  kept : ∀ i, (∃ m, u.layer? i = some m) ↔
    ∃ j l, t.RestsOn j i ∧ t.layer? j = some l ∧ ∀ k, l.lease = some k → ended k = false
  /-- A layer that stays keeps its entries, its parent, its owner and its lease. -/
  unchanged : ∀ i m, u.layer? i = some m → ∃ l, t.layer? i = some l ∧
    m.entries = l.entries ∧ m.parent = l.parent ∧ m.owner = l.owner ∧ m.lease = l.lease
  /-- From a layer that stays every key is resolved as before. -/
  resolved : ∀ i m, u.layer? i = some m → ∀ k, u.resolve? i k = t.resolve? i k
  /-- An object has its layer as before if the layer stays, and none if it does not. -/
  owners : ∀ o i, t.layerOf? o = some i →
    ((∃ m, u.layer? i = some m) → u.layerOf? o = some i) ∧
    ((¬ ∃ m, u.layer? i = some m) → u.layerOf? o = none)
  /-- An object without a layer is given none. -/
  others : ∀ o, t.layerOf? o = none → u.layerOf? o = none
  /-- Pruning is due again at twice the number of layers that stay, and not before sixty-four. -/
  bound : u.pruneAt = max 64 (2 * u.count)
  /-- Unless more leases end, pruning again changes nothing. -/
  settled : ∀ ended' : Lease → Bool, (∀ k, ended' k = true → ended k = true) → u.prune ended' = u

/-- An object whose layer was removed has none. -/
lemma Thinned.layerOf?_of_removed (hthin : Thinned ended t u) (h : t.WellFormed root)
    (hu : u.WellFormed root) {o : ObjectId} (ho : t.layerOf? o = some i)
    (hi : ¬ ∃ m, u.layer? i = some m) : u.layerOf? o = none := by
  cases hj : u.layerOf? o with
  | none => rfl
  | some j =>
    -- the object had that layer before, and an object has one layer only
    obtain ⟨m, hm, rfl⟩ := hu.layer?_of_layerOf? hj
    obtain ⟨l, n, hl, rfl⟩ := hthin.stays j m hm
    have hji : j = i := Option.some.inj ((h.layerOf?_owner hl).symm.trans ho)
    exact absurd ⟨_, hji ▸ hm⟩ hi

/-- **Pruning removes exactly the layers on which nothing living rests.**  It leaves all others as
they are, in one pass, whatever the tree looks like and whichever leases have ended. -/
theorem Reachable.prune_exact (h : Reachable root t) (ended : Lease → Bool) :
    PrunedTo ended t (t.prune ended) := by
  have hwf := h.wellFormed
  have hwf' : (t.prune ended).WellFormed root := hwf.prune
  have hthin : Thinned ended t (t.prune ended) := hwf.thinned_prune
  constructor
  case kept =>
    intro i
    simp only [hwf.layer?_prune_iff ended i, Layer.isEnded_eq_false_iff]
  case unchanged =>
    intro i m hm
    obtain ⟨l, n, hl, rfl⟩ := hthin.stays i m hm
    exact ⟨l, hl, rfl, rfl, rfl, rfl⟩
  case resolved => exact fun i m hm k => hthin.resolve?_eq hwf hwf' hm k
  case owners =>
    intro o i ho
    refine ⟨?_, hthin.layerOf?_of_removed hwf hwf' ho⟩
    rintro ⟨m, hm⟩
    exact hthin.layerOf?_of_eq_some hwf hwf' ho hm
  case others => exact fun o ho => hthin.layerOf?_of_eq_none hwf hwf' ho
  case bound => exact pruneAt_prune t ended
  case settled =>
    intro ended' hless
    rw [((busy_prune ended t).mono hless).prune_eq hwf']
    rfl

/-- A tree with two branches of three layers each, of which the second begins at the first layer of
the first. -/
def forked : LayerTree :=
  let link (n : Nat) : Link := ⟨.minted n, some n⟩
  let t := (start (.minted 0)).ensure (fun _ => false) ⟨link 3, [link 2, link 1, link 0]⟩
  (t.state.ensure (fun _ => false) ⟨link 6, [link 5, link 4, link 1, link 0]⟩).state

-- only one lease is running, and its layer is on top of the first branch
theorem Reachable.prune_exact_forked :
    Reachable (.minted 0) forked ∧ PrunedTo (· ≠ 3) forked (forked.prune (· ≠ 3)) ∧
      ∃ m, (forked.prune (· ≠ 3)).layer? 1 = some m := by
  have h : Reachable (.minted 0) forked := (Reachable.start.ensure _ _).ensure _ _
  have hexact := Reachable.prune_exact h (· ≠ 3)
  have hrests : forked.RestsOn 3 1 := .parent rfl rfl (.parent rfl rfl (.self rfl))
  refine ⟨h, hexact, (hexact.kept 1).2 ⟨3, _, hrests, rfl, ?_⟩⟩
  intro k hk
  obtain rfl := Option.some.inj hk
  rfl

-- the first branch stays, the second goes in one pass
example : (forked.layers.map (·.id)) = [6, 5, 4, 3, 2, 1, 0] ∧
    ((forked.prune (· ≠ 3)).layers.map (·.id)) = [3, 2, 1, 0] := by decide +kernel

end LayerTree

end Glossary
