import Glossary.Proofs.Lexicon.Run

/-!
# Everything that can be asked of a lexicon

A task is a deed, a question about a language code, about a key of a layer, or a list of standard
entries to be put in place.  An occasion is a task together with the leases that have ended when it
is carried out.  The outcomes of a row of occasions say, for each of them, what state it leaves, what
it answers and what it reports.
-/

namespace Glossary

/-- Everything that can be asked of a lexicon. -/
inductive Task where
  /-- Carry out a deed. -/
  | deed (d : Deed)
  /-- Tell the code that a language is kept under. -/
  | canonical (language : String)
  /-- Tell what a layer itself says about a key. -/
  | own (i : LayerId) (k : Key)
  /-- Tell what a layer, or one it falls back to, says about a key. -/
  | resolve (i : LayerId) (k : Key)
  /-- Put standard entries in place. -/
  | preload (find : String → Option Chain) (entries : List StandardEntry)

/-- A task, and the leases that have ended when it is carried out. -/
structure Occasion where
  /-- Which leases have ended. -/
  ended : Lease → Bool
  /-- What is asked. -/
  task : Task

namespace Lexicon

/-- What a deed reports. -/
def deedEvents (x : Lexicon) (ended : Lease → Bool) : Deed → List Event
  | .ensure c => (x.ensure ended c).events
  | .add c l s t => (x.add ended c l s t).events
  | .remove c l s => (x.remove ended c l s).events
  | .find d c l n => (x.find ended d c l n).events
  | .substitute d r l n => (x.substitute d r l n).2
  | .layerOf _ => []
  | .nearest _ => []

/-- Carries out a task. -/
def carryOut (x : Lexicon) (ended : Lease → Bool) : Task → Outcome Lexicon Answer
  | .deed d => ⟨(x.perform ended d).1, (x.perform ended d).2, x.deedEvents ended d⟩
  | .canonical l => ⟨x, .text (x.canonical l), []⟩
  | .own i k => ⟨x, .ofOption .text (x.tree.own? i k), []⟩
  | .resolve i k =>
    let s := x.tree.resolve? i k
    ⟨x, .ofOption (fun s => .text s.value) s, LayerTree.resolveEvents i k s⟩
  | .preload find entries =>
    let o := x.preload ended find entries
    ⟨o.state, .report o.result, o.events⟩

/-- What becomes of a row of occasions, one after another. -/
def outcomes (x : Lexicon) : List Occasion → List (Outcome Lexicon Answer)
  | [] => []
  | u :: rest => x.carryOut u.ended u.task :: (x.carryOut u.ended u.task).state.outcomes rest

section Invariant

variable {P : Lexicon → Prop} {x : Lexicon}
  (hensure : ∀ (x : Lexicon) (ended : Lease → Bool) (c : Chain), P x → P (x.ensure ended c).state)
  (hadd : ∀ (x : Lexicon) (ended : Lease → Bool) (c : Chain) (language source target : String),
    P x → P (x.add ended c language source target).state)
  (hremove : ∀ (x : Lexicon) (ended : Lease → Bool) (c : Chain) (language source : String),
    P x → P (x.remove ended c language source).state)

include hensure hadd hremove

/-- What is preserved by giving a layer to an object, and by adding and removing pairs, is preserved
by every task. -/
lemma carryOut_invariant (h : P x) (ended : Lease → Bool) (k : Task) :
    P (x.carryOut ended k).state := by
  cases k with
  | deed d =>
    cases d with
    | ensure c => exact hensure x ended c h
    | add c l s t => exact hadd x ended c l s t h
    | remove c l s => exact hremove x ended c l s h
    | find d c l n => exact hensure x ended c h
    | substitute d r l n => exact h
    | layerOf y => exact h
    | nearest c => exact h
  | canonical l => exact h
  | own i k => exact h
  | resolve i k => exact h
  | preload find entries =>
    exact preload_induction (fun x c l s t => hadd x ended c l s t) h find entries

lemma outcomes_invariant (h : P x) (us : List Occasion) : ∀ o ∈ x.outcomes us, P o.state := by
  induction us generalizing x with
  | nil => simp [outcomes]
  | cons u rest ih =>
    have hfirst := carryOut_invariant hensure hadd hremove h u.ended u.task
    exact List.forall_mem_cons.2 ⟨hfirst, ih hfirst⟩

end Invariant

/-- The aliases never change. -/
lemma aliases_carryOut (x : Lexicon) (ended : Lease → Bool) (k : Task) :
    (x.carryOut ended k).state.aliases = x.aliases := by
  refine carryOut_invariant (P := fun y => y.aliases = x.aliases) ?_ ?_ ?_ rfl ended k
  · exact fun y _ _ h => h
  · exact fun y _ _ _ _ _ h => h
  · exact fun y ended c l s h => (y.aliases_remove ended c l s).trans h

end Lexicon

end Glossary
