import Glossary.Proofs.Layer.Pairing
import Glossary.Proofs.Lexicon.Reachable

/-!
# Pairs in a lexicon

In every lexicon that can arise, every layer is one to one: a forward entry is there exactly if
the reverse entry that goes with it is there.  `remove` relies on this when it erases the second
half of a pair without looking at it.
-/

namespace Glossary

namespace Lexicon

variable {root : ObjectId} {x : Lexicon}

/-- All layers of a lexicon are one to one. -/
def AllOneToOne (x : Lexicon) : Prop := ∀ l ∈ x.tree.layers, l.entries.OneToOne

lemma AllOneToOne.ensure (h : x.AllOneToOne) (ended : Lease → Bool) (c : Chain) :
    (x.ensure ended c).state.AllOneToOne :=
  LayerTree.forall_entries_ensure Entries.oneToOne_empty h ended c

lemma AllOneToOne.add (h : x.AllOneToOne) (ended : Lease → Bool) (c : Chain)
    (language source target : String) :
    (x.add ended c language source target).state.AllOneToOne :=
  forall_entries_add Entries.oneToOne_empty h ended c fun _ he => he.pair _ source target

/-- The reverse half that is erased unseen is that of the pair. -/
lemma AllOneToOne.remove (h : x.AllOneToOne) (ended : Lease → Bool) (c : Chain)
    (language source : String) : (x.remove ended c language source).state.AllOneToOne :=
  forall_entries_remove Entries.oneToOne_empty h ended c fun _ _ he hpair => he.unpair hpair

lemma Reachable.allOneToOne (h : Reachable root x) : x.AllOneToOne := by
  refine h.invariant (P := AllOneToOne) ?_ (fun _ ended c ih => ih.ensure ended c)
    (fun _ ended c l s t ih => ih.add ended c l s t) (fun _ ended c l s ih => ih.remove ended c l s)
  intro aliases l hl
  obtain rfl := List.mem_singleton.1 hl
  exact Entries.oneToOne_empty

/-- **In every lexicon that can arise the entries of every layer are paired.**  So, in each
language, a layer is a one-to-one table, and no entry stands without its counterpart. -/
theorem Reachable.entries_paired (h : Reachable root x) (i : LayerId) (l : Layer)
    (hl : x.tree.layer? i = some l) (language : String) :
    (∀ source target, l.entries.get? (.forward language source) = some target ↔
      l.entries.get? (.reverse language target) = some source) ∧
    (∀ a b target, l.entries.get? (.forward language a) = some target →
      l.entries.get? (.forward language b) = some target → a = b) ∧
    (∀ a b source, l.entries.get? (.reverse language a) = some source →
      l.entries.get? (.reverse language b) = some source → a = b) ∧
    ∀ d name value, (⟨d, language, name⟩, value) ∈ l.entries.rows →
      (⟨d.opposite, language, value⟩, name) ∈ l.entries.rows := by
  have hone := h.allOneToOne l (LayerTree.mem_of_layer? hl)
  have hpaired := hone.paired language
  refine ⟨hpaired, ?_, ?_, ?_⟩
  · intro a b target ha hb
    have ha' := (hpaired a target).1 ha
    have hb' := (hpaired b target).1 hb
    exact Option.some.inj (ha'.symm.trans hb')
  · intro a b source ha hb
    have ha' := (hpaired source a).2 ha
    have hb' := (hpaired source b).2 hb
    exact Option.some.inj (ha'.symm.trans hb')
  · intro d name value hrow
    rw [hone.mem_rows_iff] at hrow ⊢
    cases d with
    | forward => exact (hpaired name value).1 hrow
    | reverse => exact (hpaired value name).2 hrow

/-- A lexicon in which a pair had to give way to another with the same canonical name. -/
def evicting : Lexicon :=
  let c : Chain := ⟨⟨.minted 1, some 1⟩, [⟨.minted 0, some 0⟩]⟩
  let x := (start (.minted 0) .empty).state.add (fun _ => false) c "de" "los" "go"
  (x.state.add (fun _ => false) c "de" "lauf" "go").state

theorem Reachable.entries_paired_evicting :
    Reachable (.minted 0) evicting ∧ ∃ l, evicting.tree.layer? 1 = some l ∧
      ∀ source target, l.entries.get? (.forward "de" source) = some target ↔
        l.entries.get? (.reverse "de" target) = some source := by
  have h : Reachable (.minted 0) evicting := ((Reachable.start .empty).add _ _ _ _ _).add _ _ _ _ _
  obtain ⟨l, hl⟩ : ∃ l, evicting.tree.layer? 1 = some l := ⟨_, rfl⟩
  exact ⟨h, l, hl, (Reachable.entries_paired h 1 l hl "de").1⟩

end Lexicon

end Glossary
