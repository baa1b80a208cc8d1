import Glossary.Proofs.Layer.Account
import Glossary.Proofs.Lexicon.Task

/-!
# The trace of a run

The trace of a run is all that is reported in it.  Whatever a task does to the layers is in its
report, in the order in which it is done, so that the trace of a run accounts for its layers: how
many there are after each task can be read off the reports, and each report is true at the moment it
is made.
-/

namespace Glossary

namespace Lexicon

open LayerTree (Recounts Tells)

variable {root : ObjectId} {x : Lexicon} {ended : Lease → Bool}

/-- The lexicon after a row of occasions. -/
def afterAll (x : Lexicon) (us : List Occasion) : Lexicon :=
  us.foldl (fun x u => (x.carryOut u.ended u.task).state) x

/-- All that is reported in a row of occasions. -/
def trace (x : Lexicon) (us : List Occasion) : List Event :=
  (x.outcomes us).flatMap (·.events)

/-! ## The reports of one task -/

lemma recounts_add (h : x.tree.WellFormed root) (ended : Lease → Bool) (c : Chain)
    (language source target : String) :
    Recounts ended x.tree (x.add ended c language source target).events
      (x.add ended c language source target).state.tree := by
  have hlayer := x.tree.layerOf?_ensure ended c
  have hpaired : Recounts ended (x.tree.ensure ended c).state
      [.paired c.self.id (x.canonical language) source target] _ :=
    .single (.paired hlayer (x.canonical language) source target)
  refine Recounts.append ((h.recounts_ensure ended c).append ?_) hpaired
  cases Entries.Pairing.evicted _ with
  | none => exact .done _
  | some evicted => exact .single (.displaced _ _ _ _)

lemma recounts_remove (h : x.tree.WellFormed root) (ended : Lease → Bool) (c : Chain)
    (language source : String) :
    Recounts ended x.tree (x.remove ended c language source).events
      (x.remove ended c language source).state.tree := by
  have hensure := h.recounts_ensure ended c
  rw [remove, removeAt]
  split
  · exact hensure
  · next target htarget =>
    have hlayer := x.tree.layerOf?_ensure ended c
    exact hensure.append (.single (.unpaired hlayer htarget))

lemma recounts_find (h : x.tree.WellFormed root) (ended : Lease → Bool) (d : Direction) (c : Chain)
    (language name : String) :
    Recounts ended x.tree (x.find ended d c language name).events
      (x.find ended d c language name).state.tree :=
  (h.recounts_ensure ended c).append (LayerTree.recounts_resolve ended _ _ _)

lemma recounts_substitute (ended : Lease → Bool) (x : Lexicon) (d : Direction) (r : Receiver)
    (language name : String) :
    Recounts ended x.tree (x.substitute d r language name).2 x.tree := by
  cases r with
  | absent => exact .done _
  | foreign => exact .single (.foreign _)
  | carrier c => exact LayerTree.recounts_resolve ended _ _ _

lemma recounts_preloadFrom (h : x.tree.WellFormed root) (ended : Lease → Bool)
    (find : String → Option Chain) (r : Report) (entries : List StandardEntry) :
    Recounts ended x.tree (x.preloadFrom ended find r entries).events
      (x.preloadFrom ended find r entries).state.tree := by
  induction entries generalizing x r with
  | nil => exact .single (.preloaded _ _)
  | cons e rest ih =>
    rw [preloadFrom]
    cases find e.target with
    | none => exact .step (.unknownTarget _) (ih h _)
    | some c =>
      have hadd := recounts_add h ended c e.language e.localized e.canonical
      exact hadd.append (ih (hadd.wellFormed h) _)

/-- What a task does to the layers is what it reports. -/
lemma recounts_carryOut (h : x.tree.WellFormed root) (ended : Lease → Bool) (k : Task) :
    Recounts ended x.tree (x.carryOut ended k).events (x.carryOut ended k).state.tree := by
  cases k with
  | deed d =>
    cases d with
    | ensure c => exact h.recounts_ensure ended c
    | add c l s t => exact recounts_add h ended c l s t
    | remove c l s => exact recounts_remove h ended c l s
    | find d c l n => exact recounts_find h ended d c l n
    | substitute d r l n => exact recounts_substitute ended x d r l n
    | layerOf y => exact .done _
    | nearest c => exact .done _
  | canonical l => exact .done _
  | own i k => exact .done _
  | resolve i k => exact LayerTree.recounts_resolve ended _ _ _
  | preload find entries => exact recounts_preloadFrom h ended find .none entries

/-! ## The trace of a run -/

/-- What can be read off the events so far: how many layers there are, and which number is the
next. -/
structure Balanced (es : List Event) (t : LayerTree) : Prop where
  /-- There is the root layer, and those that were grafted and not removed. -/
  count : t.count + (es.map Event.reclaimed).sum = 1 + es.countP Event.isGraft
  /-- The next number is that of the next layer to be grafted. -/
  nextId : t.nextId = es.countP Event.isGraft + 1

lemma balanced_start (root : ObjectId) : Balanced [] (.start root) where
  count := rfl
  nextId := rfl

lemma Balanced.recounts {es fs : List Event} {t u : LayerTree} (h : Balanced es t)
    (hfs : Recounts ended t fs u) : Balanced (es ++ fs) u where
  count := by
    have hcount := hfs.count_eq
    have hbefore := h.count
    rw [List.map_append, List.sum_append, List.countP_append]
    omega
  nextId := by
    rw [hfs.nextId_eq, h.nextId, List.countP_append, Nat.add_right_comm]

/-- The trace of a run, after what was reported before, accounts for the layers at its end. -/
lemma Balanced.afterAll {es : List Event} (h : Balanced es x.tree) (hwf : x.tree.WellFormed root)
    (us : List Occasion) :
    Balanced (es ++ x.trace us) (x.afterAll us).tree ∧ (x.afterAll us).tree.WellFormed root := by
  induction us generalizing x es with
  | nil =>
    rw [trace, outcomes, List.flatMap_nil, List.append_nil]
    exact ⟨h, hwf⟩
  | cons u rest ih =>
    have hfirst := recounts_carryOut hwf u.ended u.task
    have hrest := ih (h.recounts hfirst) (hfirst.wellFormed hwf)
    rw [trace, outcomes, List.flatMap_cons, ← List.append_assoc]
    exact hrest

/-- **The trace of a run accounts for its layers.**  After every run the number of layers is one
more than the number of layers that were grafted, less those that were removed, as the trace has
them.  In the task that comes next every event has its moment: the events before it lead from the
tree at hand to the tree that it finds, those after it lead on from the tree that it leaves, and what
it says is so between these two trees.  This includes lexica that are launched from settings: they
are new ones whose first task is to put the standard entries in place (`launch_eq_ok_iff`). -/
theorem trace_accounts_for_layers (root : ObjectId) (aliases : AliasTable) (us : List Occasion) :
    let x := (Lexicon.start root aliases).state
    let y := x.afterAll us
    y.tree.count + ((x.trace us).map Event.reclaimed).sum = 1 + (x.trace us).countP Event.isGraft ∧
    ∀ u : Occasion,
      let o := y.carryOut u.ended u.task
      Recounts u.ended y.tree o.events o.state.tree ∧
      ∀ before e rest, o.events = before ++ e :: rest →
        ∃ t v, Recounts u.ended y.tree before t ∧ Tells u.ended t e v ∧
          Recounts u.ended v rest o.state.tree ∧
          e.Holds ((x.trace us ++ before).countP Event.isGraft) t v := by
  intro x y
  obtain ⟨hbalanced, hwf⟩ :=
    Balanced.afterAll (x := x) (balanced_start root) (LayerTree.wellFormed_start root) us
  refine ⟨hbalanced.count, fun u => ?_⟩
  have hrecounts := recounts_carryOut hwf u.ended u.task
  refine ⟨hrecounts, fun before e rest hsplit => ?_⟩
  rw [hsplit] at hrecounts
  obtain ⟨t, v, hbefore, htells, hrest⟩ := hrecounts.moment
  have hmade := (hbalanced.recounts hbefore).nextId
  exact ⟨t, v, hbefore, htells, hrest, htells.holds (hbefore.wellFormed hwf) hmade⟩

-- sixty-three objects in a row are given layers, and their leases have ended when one more comes
example :
    let row : List Link := (List.range' 2 62).map fun i => ⟨.minted i, some i⟩
    let us : List Occasion :=
      [⟨fun _ => false, .deed (.ensure ⟨⟨.minted 1, some 1⟩, row⟩)⟩,
        ⟨fun k => decide (k < 64), .deed (.ensure ⟨⟨.minted 64, some 64⟩, []⟩)⟩]
    let x := (Lexicon.start (.minted 0) .empty).state
    (x.trace us).drop 63 = [.pruned 63 1, .grafted (.minted 64) 64 .root] ∧
      (x.afterAll us).tree.count = 2 := by
  decide +kernel

end Lexicon

end Glossary
