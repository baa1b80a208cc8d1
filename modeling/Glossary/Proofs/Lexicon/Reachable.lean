import Glossary.Lexicon.Preload
import Glossary.Proofs.Layer.Reachable
import Glossary.Proofs.Settings.Check

/-!
# The lexica that can arise

A lexicon is started empty, from settings, or from settings with their standard entries in place.
After that it changes by the operations that give an object a layer.  Nothing is assumed of the
objects: at every step their chains, identities and leases may be anything at all.
-/

namespace Glossary

namespace Lexicon

/-- The lexica that can arise for a root object. -/
inductive Reachable (root : ObjectId) : Lexicon → Prop
  /-- A new lexicon with any aliases. -/
  | start (aliases : AliasTable) : Reachable root (start root aliases).state
  /-- A lexicon with the aliases of settings. -/
  | ofSettings {s : Settings} {o : Outcome Lexicon Unit} (h : ofSettings root s = .ok o) :
    Reachable root o.state
  /-- A lexicon with the aliases and the standard entries of settings. -/
  | launch {s : Settings} {ended : Lease → Bool} {find : String → Option Chain}
    {o : Outcome Lexicon Report} (h : launch root s ended find = .ok o) : Reachable root o.state
  /-- An object is given a layer. -/
  | ensure {x : Lexicon} (h : Reachable root x) (ended : Lease → Bool) (c : Chain) :
    Reachable root (x.ensure ended c).state
  /-- A pair is added. -/
  | add {x : Lexicon} (h : Reachable root x) (ended : Lease → Bool) (c : Chain)
    (language source target : String) : Reachable root (x.add ended c language source target).state
  /-- A pair is removed. -/
  | remove {x : Lexicon} (h : Reachable root x) (ended : Lease → Bool) (c : Chain)
    (language source : String) : Reachable root (x.remove ended c language source).state
  /-- A name is looked up for an object, which receives a layer. -/
  | find {x : Lexicon} (h : Reachable root x) (ended : Lease → Bool) (d : Direction) (c : Chain)
    (language name : String) : Reachable root (x.find ended d c language name).state
  /-- Standard entries are put in place. -/
  | preload {x : Lexicon} (h : Reachable root x) (ended : Lease → Bool)
    (find : String → Option Chain) (entries : List StandardEntry) :
    Reachable root (x.preload ended find entries).state

/-- What putting one standard entry in place does to a lexicon. -/
def install (ended : Lease → Bool) (find : String → Option Chain) (x : Lexicon)
    (e : StandardEntry) : Lexicon :=
  match find e.target with
  | some c => (x.add ended c e.language e.localized e.canonical).state
  | none => x

/-- Standard entries are put in place one after another. -/
lemma preload_state (x : Lexicon) (ended : Lease → Bool) (find : String → Option Chain)
    (entries : List StandardEntry) :
    (x.preload ended find entries).state = entries.foldl (install ended find) x := by
  rw [preload]
  -- the report has no bearing on the lexicon
  generalize Report.none = r
  induction entries generalizing x r with
  | nil => rfl
  | cons e rest ih =>
    rw [preloadFrom, List.foldl_cons, install]
    cases find e.target with
    | none => exact ih x _
    | some c => exact ih (x.add ended c e.language e.localized e.canonical).state _

/-- What every added pair preserves, putting standard entries in place preserves. -/
lemma preload_induction {P : Lexicon → Prop} {ended : Lease → Bool}
    (step : ∀ (x : Lexicon) (c : Chain) (language source target : String), P x →
      P (x.add ended c language source target).state)
    {x : Lexicon} (h : P x) (find : String → Option Chain) (entries : List StandardEntry) :
    P (x.preload ended find entries).state := by
  rw [preload_state]
  induction entries generalizing x with
  | nil => exact h
  | cons e rest ih =>
    rw [List.foldl_cons, install]
    cases find e.target with
    | none => exact ih h
    | some c => exact ih (step x c e.language e.localized e.canonical h)

/-- Settings without defects give a new lexicon with their aliases. -/
lemma ofSettings_eq_ok_iff {root : ObjectId} {s : Settings} {o : Outcome Lexicon Unit} :
    ofSettings root s = .ok o ↔ s.defects = [] ∧ o = Lexicon.start root s.aliases := by
  rw [ofSettings]
  cases hs : s.check with
  | error ds =>
    obtain ⟨hne, -⟩ := Settings.check_eq_error_iff.1 hs
    simp [hne]
  | ok s' =>
    obtain ⟨hnil, rfl⟩ := Settings.check_eq_ok_iff.1 hs
    simp [hnil, eq_comm]

/-- Settings without defects are launched: their entries are put in place in a new lexicon. -/
lemma launch_eq_ok_iff {root : ObjectId} {s : Settings} {ended : Lease → Bool}
    {find : String → Option Chain} {o : Outcome Lexicon Report} :
    launch root s ended find = .ok o ↔
      s.defects = [] ∧
        let p := (Lexicon.start root s.aliases).state.preload ended find s.standard
        o = { p with events := (Lexicon.start root s.aliases).events ++ p.events } := by
  rw [launch]
  split
  · next ds hds =>
    have hno : s.defects ≠ [] := by
      intro hnil
      rw [ofSettings_eq_ok_iff.2 ⟨hnil, rfl⟩] at hds
      cases hds
    simp [hno]
  · next u hu =>
    obtain ⟨hnil, rfl⟩ := ofSettings_eq_ok_iff.1 hu
    simp [hnil, eq_comm]

/-- What holds of a new lexicon and is preserved by giving a layer to an object, and by adding and
removing pairs, holds of every lexicon that can arise. -/
lemma Reachable.invariant {root : ObjectId} {P : Lexicon → Prop}
    (start : ∀ aliases, P (Lexicon.start root aliases).state)
    (ensure : ∀ (x : Lexicon) (ended : Lease → Bool) (c : Chain), P x →
      P (x.ensure ended c).state)
    (add : ∀ (x : Lexicon) (ended : Lease → Bool) (c : Chain) (language source target : String),
      P x → P (x.add ended c language source target).state)
    (remove : ∀ (x : Lexicon) (ended : Lease → Bool) (c : Chain) (language source : String),
      P x → P (x.remove ended c language source).state)
    {x : Lexicon} (h : Reachable root x) : P x := by
  induction h with
  | start aliases => exact start aliases
  | ofSettings h =>
    obtain ⟨-, rfl⟩ := ofSettings_eq_ok_iff.1 h
    exact start _
  | launch h =>
    obtain ⟨-, rfl⟩ := launch_eq_ok_iff.1 h
    exact preload_induction (fun x c l s t => add x _ c l s t) (start _) _ _
  | ensure _ ended c ih => exact ensure _ ended c ih
  | add _ ended c l s t ih => exact add _ ended c l s t ih
  | remove _ ended c l s ih => exact remove _ ended c l s ih
  | find _ ended d c l n ih => exact ensure _ ended c ih
  | preload _ ended find entries ih =>
    exact preload_induction (fun x c l s t => add x ended c l s t) ih find entries

/-- Removing a pair ensures a layer and changes its entries, if the pair is there. -/
lemma remove_tree (x : Lexicon) (ended : Lease → Bool) (c : Chain) (language source : String) :
    let o := x.tree.ensure ended c
    (x.remove ended c language source).state.tree = o.state ∨
      ∃ target, (o.state.entriesOf o.result).get? (.forward (x.canonical language) source) =
          some target ∧
        (x.remove ended c language source).state.tree = o.state.setEntries o.result
          ((o.state.entriesOf o.result).unpair (x.canonical language) source target) := by
  intro o
  rw [remove, removeAt]
  split
  · exact Or.inl rfl
  · next target htarget => exact Or.inr ⟨target, htarget, rfl⟩

lemma aliases_remove (x : Lexicon) (ended : Lease → Bool) (c : Chain) (language source : String) :
    (x.remove ended c language source).state.aliases = x.aliases := by
  rw [remove, removeAt]
  split <;> rfl

section Entries

variable {Q : Entries → Prop} {x : Lexicon}

/-- What holds of the entries of all layers, of empty ones too, and is kept by an added pair. -/
lemma forall_entries_add (hempty : Q .empty) (h : ∀ l ∈ x.tree.layers, Q l.entries)
    (ended : Lease → Bool) (c : Chain) {language source target : String}
    (hpair : ∀ e : Entries, Q e → Q (e.pair (x.canonical language) source target).entries) :
    ∀ l ∈ (x.add ended c language source target).state.tree.layers, Q l.entries := by
  have hensured := LayerTree.forall_entries_ensure hempty h ended c
  exact LayerTree.forall_entries_setEntries hensured _
    (hpair _ (LayerTree.entriesOf_of_forall hempty hensured _))

/-- What holds of the entries of all layers, of empty ones too, and is kept when a pair that is there
is removed. -/
lemma forall_entries_remove (hempty : Q .empty) (h : ∀ l ∈ x.tree.layers, Q l.entries)
    (ended : Lease → Bool) (c : Chain) {language source : String}
    (hunpair : ∀ (e : Entries) (target : String), Q e →
      e.get? (.forward (x.canonical language) source) = some target →
        Q (e.unpair (x.canonical language) source target)) :
    ∀ l ∈ (x.remove ended c language source).state.tree.layers, Q l.entries := by
  have hensured := LayerTree.forall_entries_ensure hempty h ended c
  rcases x.remove_tree ended c language source with htree | ⟨target, hpair, htree⟩
  · rw [htree]
    exact hensured
  · rw [htree]
    exact LayerTree.forall_entries_setEntries hensured _
      (hunpair _ target (LayerTree.entriesOf_of_forall hempty hensured _) hpair)

end Entries

lemma Reachable.tree {root : ObjectId} {x : Lexicon} (h : Reachable root x) :
    x.tree.Reachable root := by
  refine h.invariant (P := fun x => x.tree.Reachable root) (fun _ => .start) ?_ ?_ ?_
  · intro x ended c ih
    exact ih.ensure ended c
  · intro x ended c l s t ih
    exact (ih.ensure ended c).setEntries _ _
  · intro x ended c l s ih
    rcases x.remove_tree ended c l s with htree | ⟨target, -, htree⟩
    · rw [htree]
      exact ih.ensure ended c
    · rw [htree]
      exact (ih.ensure ended c).setEntries _ _

end Lexicon

end Glossary
