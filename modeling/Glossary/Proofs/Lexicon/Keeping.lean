import Glossary.Proofs.Layer.Covers
import Glossary.Proofs.Lexicon.Run

/-!
# Pruning does not show

A run of a lexicon gives the same answers as the run in which no layer is ever removed, down to
the numbers of the layers.  It is enough that an object always has the same lease, that a lease
that has ended stays so, and that no walk passes an object whose lease has ended.  Chains may
change from turn to turn, and they may be circular.

The two runs keep `LayerTree.Covers` between their trees: `performKeeping_eq` is the step, and the
run is an induction over the turns.
-/

namespace Glossary

namespace Lexicon

variable {root : ObjectId} {handle : ObjectId → Option Lease} {ended : Lease → Bool}
  {x y : Lexicon}

/-- Two lexica with the same aliases, of which the second keeps what the first has removed. -/
structure Covers (root : ObjectId) (handle : ObjectId → Option Lease) (ended : Lease → Bool)
    (x y : Lexicon) : Prop where
  /-- The second tree keeps what the first has removed. -/
  tree : x.tree.Covers root handle ended y.tree
  /-- The aliases are the same. -/
  aliases : y.aliases = x.aliases

/-- The outcome of giving an object a layer, in both lexica. -/
structure CoversOutcome (root : ObjectId) (handle : ObjectId → Option Lease)
    (ended : Lease → Bool) (o p : Outcome LayerTree LayerId) : Prop where
  /-- The second tree keeps what the first has removed. -/
  tree : o.state.Covers root handle ended p.state
  /-- The layer is the same. -/
  result : p.result = o.result
  /-- The layer is there. -/
  there : ∃ l, o.state.layer? o.result = some l

lemma Covers.ensure (h : Covers root handle ended x y) {c : Chain}
    (hlease : ∀ z ∈ c.links, z.lease = handle z.id)
    (hrunning : ∀ z ∈ ((x.tree.tidy ended).survey [] c.links).pending, z.lease.any ended = false) :
    CoversOutcome root handle ended (x.tree.ensure ended c) (y.tree.grow c) := by
  obtain ⟨htree, hresult⟩ := h.tree.ensure hlease hrunning
  obtain ⟨l, hl, -⟩ := h.tree.pruned.layer?_ensure ended c
  exact ⟨htree, hresult, l, hl⟩

variable {o p : Outcome LayerTree LayerId}

lemma CoversOutcome.entriesOf_eq (h : CoversOutcome root handle ended o p) :
    p.state.entriesOf p.result = o.state.entriesOf o.result := by
  obtain ⟨l, hl⟩ := h.there
  rw [h.result, h.tree.entriesOf_eq hl]

lemma Covers.addAt (h : Covers root handle ended x y) (ho : CoversOutcome root handle ended o p)
    (c : Chain) (language source target : String) :
    Covers root handle ended (x.addAt o c language source target).state
      (y.addAt p c language source target).state := by
  refine ⟨?_, h.aliases⟩
  simp only [Lexicon.addAt, Lexicon.canonical]
  rw [ho.entriesOf_eq, ho.result, h.aliases]
  exact ho.tree.setEntries _ _

lemma Covers.removeAt (h : Covers root handle ended x y)
    (ho : CoversOutcome root handle ended o p) (c : Chain) (language source : String) :
    Covers root handle ended (x.removeAt o c language source).state
        (y.removeAt p c language source).state ∧
      (y.removeAt p c language source).result = (x.removeAt o c language source).result := by
  simp only [Lexicon.removeAt, Lexicon.canonical]
  rw [ho.entriesOf_eq, ho.result, h.aliases]
  split
  · exact ⟨⟨ho.tree, rfl⟩, rfl⟩
  · exact ⟨⟨ho.tree.setEntries _ _, rfl⟩, rfl⟩

lemma CoversOutcome.findAt (ho : CoversOutcome root handle ended o p)
    (halias : y.aliases = x.aliases) (d : Direction) (language name : String) :
    (y.findAt p d language name).result = (x.findAt o d language name).result := by
  obtain ⟨l, hl⟩ := ho.there
  simp only [Lexicon.findAt, Lexicon.canonical]
  rw [halias, ho.result, ho.tree.resolve?_eq _ _ _ hl]

/-- A walk that passes no object whose lease has ended leads to the same layer in both lexica. -/
lemma Covers.nearest_eq (h : Covers root handle ended x y) {c : Chain}
    (hlease : ∀ z ∈ c.links, z.lease = handle z.id)
    (hrunning : ∀ z ∈ (x.tree.survey [] c.links).pending, z.lease.any ended = false) :
    y.tree.nearest c = x.tree.nearest c := by
  rw [LayerTree.nearest_eq_anchor, LayerTree.nearest_eq_anchor,
    h.tree.survey_eq (by simpa using hlease) hrunning]

lemma Covers.substitute_eq (h : Covers root handle ended x y) {r : Receiver}
    (hlease : ∀ z ∈ r.links, z.lease = handle z.id)
    (hrunning : ∀ z ∈ (x.tree.survey [] r.links).pending, z.lease.any ended = false)
    (d : Direction) (language name : String) :
    (y.substitute d r language name).1 = (x.substitute d r language name).1 := by
  cases r with
  | absent => rfl
  | foreign => rfl
  | carrier c =>
    obtain ⟨l, hl⟩ := h.tree.pruned.anchor_exists c.links
    rw [← LayerTree.nearest_eq_anchor] at hl
    simp only [substitute, canonical]
    rw [h.nearest_eq hlease hrunning, h.aliases, h.tree.resolve?_eq _ _ _ hl]

/-- The two lexica carry out a deed alike. -/
lemma Covers.performKeeping_eq (h : Covers root handle ended x y) (deed : Deed)
    (hlease : ∀ z ∈ deed.links, z.lease = handle z.id)
    (hrunning : ∀ z ∈ x.layerless ended deed, z.lease.any ended = false) :
    Covers root handle ended (x.perform ended deed).1 (y.performKeeping deed).1 ∧
      (y.performKeeping deed).2 = (x.perform ended deed).2 := by
  cases deed with
  | ensure c =>
    have ho := h.ensure hlease hrunning
    exact ⟨⟨ho.tree, h.aliases⟩, congrArg Answer.layer ho.result⟩
  | add c l s t =>
    exact ⟨h.addAt (h.ensure hlease hrunning) c l s t, rfl⟩
  | remove c l s =>
    obtain ⟨hcovers, hresult⟩ := h.removeAt (h.ensure hlease hrunning) c l s
    exact ⟨hcovers, congrArg (Answer.ofOption Answer.text) hresult⟩
  | find d c l n =>
    have ho := h.ensure hlease hrunning
    exact ⟨⟨ho.tree, h.aliases⟩, congrArg (Answer.ofOption Answer.text) (ho.findAt h.aliases d l n)⟩
  | substitute d r l n =>
    exact ⟨h, congrArg Answer.text (h.substitute_eq hlease hrunning d l n)⟩
  | layerOf z =>
    refine ⟨h, congrArg (Answer.ofOption Answer.layer) ?_⟩
    cases hz : x.tree.layerOf? z.id with
    | some i => exact h.tree.layerOf?_of_eq_some hz
    | none =>
      have hfound : z ∈ x.layerless ended (.layerOf z) := by
        rw [layerless, LayerTree.survey_of_new hz (by simp)]
        exact List.mem_singleton_self z
      exact h.tree.layerOf?_of_eq_none (hlease z (List.mem_singleton_self z)) (hrunning z hfound) hz
  | nearest c => exact ⟨h, congrArg Answer.layer (h.nearest_eq hlease hrunning)⟩

/-- The two lexica answer a run alike. -/
lemma Covers.answersKeeping_eq (h : Covers root handle ended x y) (turns : List Turn)
    (hsince : ∀ u ∈ turns, ∀ k, ended k = true → u.ended k = true)
    (hstays : turns.Pairwise fun u v => ∀ k, u.ended k = true → v.ended k = true)
    (hlease : ∀ u ∈ turns, ∀ z ∈ u.deed.links, z.lease = handle z.id)
    (hrunning : x.NoneEnded turns) : y.answersKeeping turns = x.answers turns := by
  induction turns generalizing x y ended with
  | nil => rfl
  | cons u rest ih =>
    obtain ⟨hlater, hrest⟩ := List.pairwise_cons.1 hstays
    obtain ⟨hnow, hrunning⟩ := hrunning
    -- what has ended by now includes what had ended before
    have hcovers : Covers root handle u.ended x y :=
      ⟨h.tree.mono (hsince u List.mem_cons_self), h.aliases⟩
    obtain ⟨hstep, hanswer⟩ :=
      hcovers.performKeeping_eq u.deed (hlease u List.mem_cons_self) hnow
    rw [answersKeeping, answers, hanswer]
    refine congrArg _ (ih hstep hlater hrest ?_ hrunning)
    exact fun v hv => hlease v (List.mem_cons_of_mem _ hv)

/-- **Pruning does not show.**  Every answer of a run is that of the same run in which no layer is
ever removed, provided that identities determine leases, leases that have ended stay so, and no
object whose lease has ended is found without a layer. -/
theorem answers_eq_answersKeeping (root : ObjectId) (aliases : AliasTable)
    (handle : ObjectId → Option Lease) (turns : List Turn)
    (hlease : ∀ u ∈ turns, ∀ z ∈ u.deed.links, z.lease = handle z.id)
    (hstays : turns.Pairwise fun u v => ∀ k, u.ended k = true → v.ended k = true)
    (hrunning : (Lexicon.start root aliases).state.NoneEnded turns) :
    (Lexicon.start root aliases).state.answers turns =
      (Lexicon.start root aliases).state.answersKeeping turns := by
  have hstart : Covers root handle (fun _ => false) (Lexicon.start root aliases).state
      (Lexicon.start root aliases).state :=
    ⟨LayerTree.covers_start root handle _, rfl⟩
  exact (hstart.answersKeeping_eq turns (by simp) hstays hlease hrunning).symm

/-- The lease of each object in the run below. -/
def serialLease : ObjectId → Option Lease
  | .minted n => some n
  | .given _ => none

/-- A run in which layers are removed: the leases of a chain of sixty-three objects end, and after
that a new object receives a layer. -/
def crowdedRun : List Turn :=
  let link (n : Nat) : Link := ⟨.minted n, some n⟩
  let crowd : List Link := (List.range 63).reverse.map link
  let ended : Lease → Bool := fun k => decide (0 < k) && decide (k < 64)
  [⟨fun _ => false, .add ⟨link 0, []⟩ "de" "los" "go"⟩,
    ⟨fun _ => false, .ensure ⟨link 63, crowd⟩⟩,
    ⟨ended, .find .forward ⟨link 64, [link 0]⟩ "de" "los"⟩,
    ⟨ended, .layerOf (link 64)⟩]

theorem answers_eq_answersKeeping_crowdedRun :
    (∀ u ∈ crowdedRun, ∀ z ∈ u.deed.links, z.lease = serialLease z.id) ∧
    (crowdedRun.Pairwise fun u v => ∀ k, u.ended k = true → v.ended k = true) ∧
    (Lexicon.start (.minted 0) .empty).state.NoneEnded crowdedRun ∧
    (Lexicon.start (.minted 0) .empty).state.answers crowdedRun =
      (Lexicon.start (.minted 0) .empty).state.answersKeeping crowdedRun := by
  have hlease : ∀ u ∈ crowdedRun, ∀ z ∈ u.deed.links, z.lease = serialLease z.id := by
    decide +kernel
  have hstays : crowdedRun.Pairwise fun u v => ∀ k, u.ended k = true → v.ended k = true := by
    simp +contextual [crowdedRun]
  have hrunning : (Lexicon.start (.minted 0) .empty).state.NoneEnded crowdedRun := by
    decide +kernel
  refine ⟨hlease, hstays, hrunning, ?_⟩
  exact answers_eq_answersKeeping (.minted 0) .empty serialLease crowdedRun hlease hstays hrunning

-- of the sixty-five layers that were made only two are left
example : (crowdedRun.foldl (fun x u => (x.perform u.ended u.deed).1)
    (Lexicon.start (.minted 0) .empty).state).tree.count = 2 := by
  decide +kernel

end Lexicon

end Glossary
