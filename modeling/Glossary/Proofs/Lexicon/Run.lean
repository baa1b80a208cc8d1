import Glossary.Lexicon.Substitute
import Glossary.Proofs.Lexicon.Reachable
import Glossary.Session.Request

/-!
# Runs of a lexicon

A run is a list of turns, and a turn is a deed together with the leases that have ended when it is
carried out.  The chains that a deed is given are those of its moment: nothing ties the chain of an
object in one turn to its chain in another.

Each run can also be carried out without ever removing a layer.  The deeds are then the same but
for `grow` in place of `ensure`.

To the tree of layers a deed does one of two things: nothing, or it gives one object a layer and
then changes at most the entries of that layer.  Putting standard entries in place is a run of added
pairs.
-/

namespace Glossary

/-- What can be asked of a lexicon. -/
inductive Deed where
  /-- Give an object a layer. -/
  | ensure (c : Chain)
  /-- Add a pair. -/
  | add (c : Chain) (language source target : String)
  /-- Remove a pair. -/
  | remove (c : Chain) (language source : String)
  /-- Tell what a name stands for. -/
  | find (d : Direction) (c : Chain) (language name : String)
  /-- Substitute a name at its use. -/
  | substitute (d : Direction) (r : Receiver) (language name : String)
  /-- Tell the layer of an object. -/
  | layerOf (x : Link)
  /-- Tell the nearest layer along the chain of an object. -/
  | nearest (c : Chain)

/-- A deed, and the leases that have ended when it is carried out. -/
structure Turn where
  /-- Which leases have ended. -/
  ended : Lease → Bool
  /-- What is asked. -/
  deed : Deed

/-- The objects of the chain that something has, if it has one. -/
def Receiver.links : Receiver → List Link
  | absent => []
  | foreign => []
  | carrier c => c.links

/-- The objects that a deed is given. -/
def Deed.links : Deed → List Link
  | ensure c => c.links
  | add c _ _ _ => c.links
  | remove c _ _ => c.links
  | find _ c _ _ => c.links
  | substitute _ r _ _ => r.links
  | layerOf x => [x]
  | nearest c => c.links

/-- The object that a deed gives a layer to, if it does. -/
def Deed.chain? : Deed → Option Chain
  | ensure c => some c
  | add c _ _ _ => some c
  | remove c _ _ => some c
  | find _ c _ _ => some c
  | _ => none

namespace Lexicon

/-- Carries out a deed. -/
def perform (x : Lexicon) (ended : Lease → Bool) : Deed → Lexicon × Answer
  | .ensure c => let o := x.ensure ended c; (o.state, .layer o.result)
  | .add c l s t => let o := x.add ended c l s t; (o.state, .text o.result)
  | .remove c l s => let o := x.remove ended c l s; (o.state, .ofOption .text o.result)
  | .find d c l n => let o := x.find ended d c l n; (o.state, .ofOption .text o.result)
  | .substitute d r l n => (x, .text (x.substitute d r l n).1)
  | .layerOf y => (x, .ofOption .layer (x.tree.layerOf? y.id))
  | .nearest c => (x, .layer (x.tree.nearest c))

/-- Carries out a deed without ever removing a layer. -/
def performKeeping (x : Lexicon) : Deed → Lexicon × Answer
  | .ensure c => let o := x.tree.grow c; ({ x with tree := o.state }, .layer o.result)
  | .add c l s t => let o := x.addAt (x.tree.grow c) c l s t; (o.state, .text o.result)
  | .remove c l s =>
    let o := x.removeAt (x.tree.grow c) c l s; (o.state, .ofOption .text o.result)
  | .find d c l n => let o := x.findAt (x.tree.grow c) d l n; (o.state, .ofOption .text o.result)
  | .substitute d r l n => (x, .text (x.substitute d r l n).1)
  | .layerOf y => (x, .ofOption .layer (x.tree.layerOf? y.id))
  | .nearest c => (x, .layer (x.tree.nearest c))

/-- The lexicon after a run. -/
def after (x : Lexicon) (turns : List Turn) : Lexicon :=
  turns.foldl (fun x u => (x.perform u.ended u.deed).1) x

/-- The answers of a run. -/
def answers (x : Lexicon) : List Turn → List Answer
  | [] => []
  | u :: rest =>
    (x.perform u.ended u.deed).2 :: (x.perform u.ended u.deed).1.answers rest

/-- The answers of a run in which no layer is ever removed. -/
def answersKeeping (x : Lexicon) : List Turn → List Answer
  | [] => []
  | u :: rest => (x.performKeeping u.deed).2 :: (x.performKeeping u.deed).1.answersKeeping rest

/-- The objects that a deed finds without a layer: those that a walk along a chain passes, after
pruning if the deed may prune, or the one object that is asked for. -/
def layerless (x : Lexicon) (ended : Lease → Bool) : Deed → List Link
  | .ensure c => ((x.tree.tidy ended).survey [] c.links).pending
  | .add c _ _ _ => ((x.tree.tidy ended).survey [] c.links).pending
  | .remove c _ _ => ((x.tree.tidy ended).survey [] c.links).pending
  | .find _ c _ _ => ((x.tree.tidy ended).survey [] c.links).pending
  | .substitute _ r _ _ => (x.tree.survey [] r.links).pending
  | .layerOf y => (x.tree.survey [] [y]).pending
  | .nearest c => (x.tree.survey [] c.links).pending

/-- In no turn of a run is an object found without a layer whose lease has ended. -/
def NoneEnded (x : Lexicon) : List Turn → Prop
  | [] => True
  | u :: rest =>
    (∀ y ∈ x.layerless u.ended u.deed, y.lease.any u.ended = false) ∧
      (x.perform u.ended u.deed).1.NoneEnded rest

instance decidableNoneEnded : (x : Lexicon) → (turns : List Turn) → Decidable (x.NoneEnded turns)
  | _, [] => .isTrue trivial
  | x, u :: rest =>
    have := decidableNoneEnded (x.perform u.ended u.deed).1 rest
    inferInstanceAs (Decidable (_ ∧ _))

/-! ## What runs do to the layers -/

variable {x : Lexicon} {ended : Lease → Bool} {deed : Deed}

/-- A deed that gives no object a layer changes nothing. -/
lemma perform_of_chain?_eq_none (h : deed.chain? = none) : (x.perform ended deed).1 = x := by
  cases deed with
  | substitute d r l n => rfl
  | layerOf y => rfl
  | nearest c => rfl
  | _ => cases h

/-- A deed that gives an object a layer changes no more after that than the entries of the
layer. -/
lemma perform_tree (x : Lexicon) (ended : Lease → Bool) {c : Chain} (h : deed.chain? = some c) :
    (x.perform ended deed).1.tree = (x.tree.ensure ended c).state ∨
      ∃ e, (x.perform ended deed).1.tree =
        (x.tree.ensure ended c).state.setEntries (x.tree.ensure ended c).result e := by
  cases deed with
  | ensure c' =>
    obtain rfl := Option.some.inj h
    exact Or.inl rfl
  | find d c' l n =>
    obtain rfl := Option.some.inj h
    exact Or.inl rfl
  | add c' l s t =>
    obtain rfl := Option.some.inj h
    exact Or.inr ⟨_, rfl⟩
  | remove c' l s =>
    obtain rfl := Option.some.inj h
    rcases x.remove_tree ended c' l s with htree | ⟨target, -, htree⟩
    · exact Or.inl htree
    · exact Or.inr ⟨_, htree⟩
  | _ => cases h

/-- The turns in which standard entries are put in place: one for each entry whose object is
known. -/
def preloadTurns (ended : Lease → Bool) (find : String → Option Chain)
    (entries : List StandardEntry) : List Turn :=
  entries.filterMap fun e =>
    (find e.target).map fun c => ⟨ended, .add c e.language e.localized e.canonical⟩

/-- Putting standard entries in place is a run.  So what holds of all runs holds also if they are
put in place at the start or in between. -/
lemma preload_eq_after (x : Lexicon) (ended : Lease → Bool) (find : String → Option Chain)
    (entries : List StandardEntry) :
    (x.preload ended find entries).state = x.after (preloadTurns ended find entries) := by
  rw [preload_state]
  induction entries generalizing x with
  | nil => rfl
  | cons e rest ih =>
    rw [List.foldl_cons, install, ih]
    cases hc : find e.target with
    | none => simp [preloadTurns, hc]
    | some c => simp [preloadTurns, hc, after, perform]

end Lexicon

end Glossary
