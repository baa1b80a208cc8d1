import Glossary.Proofs.Lexicon.Task

/-!
# Languages by any of their codes

Settings without defects give a lexicon in which a language can be called by any of its codes: no
answer, no report and no state tells which of them was used.  `relabel` replaces the language codes
that a task is given.  Two tasks that are alike once every code is replaced by the one it stands for
are carried out alike, and so are two runs, of any length, made of such tasks.

It is for the same reason that all entries are filed under codes that stand for themselves.
-/

namespace Glossary

/-- The entry with another language code. -/
def StandardEntry.relabel (f : String → String) (e : StandardEntry) : StandardEntry :=
  { e with language := f e.language }

/-- The deed with other language codes. -/
def Deed.relabel (f : String → String) : Deed → Deed
  | ensure c => .ensure c
  | add c language source target => .add c (f language) source target
  | remove c language source => .remove c (f language) source
  | find d c language name => .find d c (f language) name
  | substitute d r language name => .substitute d r (f language) name
  | layerOf x => .layerOf x
  | nearest c => .nearest c

/-- The task with other language codes.  A key is the address of an entry and not a question about
a language: it stays as it is. -/
def Task.relabel (f : String → String) : Task → Task
  | deed d => .deed (d.relabel f)
  | canonical language => .canonical (f language)
  | own i k => .own i k
  | resolve i k => .resolve i k
  | preload find entries => .preload find (entries.map (·.relabel f))

/-- The occasion with other language codes in its task. -/
def Occasion.relabel (f : String → String) (u : Occasion) : Occasion :=
  { u with task := u.task.relabel f }

namespace Lexicon

variable {root : ObjectId} {s : Settings} {x : Lexicon}

/-! ## Tasks -/

lemma canonical_canonical (h : x.aliases.defects = []) (language : String) :
    x.canonical (x.canonical language) = x.canonical language :=
  AliasTable.canonical_canonical h language

/-- An added pair is added under the code that the language stands for. -/
lemma add_canonical (h : x.aliases.defects = []) (ended : Lease → Bool) (c : Chain)
    (language source target : String) :
    x.add ended c (x.canonical language) source target =
      x.add ended c language source target := by
  simp only [add, addAt, canonical_canonical h]

lemma remove_canonical (h : x.aliases.defects = []) (ended : Lease → Bool) (c : Chain)
    (language source : String) :
    x.remove ended c (x.canonical language) source = x.remove ended c language source := by
  simp only [remove, removeAt, canonical_canonical h]

lemma find_canonical (h : x.aliases.defects = []) (ended : Lease → Bool) (d : Direction) (c : Chain)
    (language name : String) :
    x.find ended d c (x.canonical language) name = x.find ended d c language name := by
  simp only [find, findAt, canonical_canonical h]

lemma substitute_canonical (h : x.aliases.defects = []) (d : Direction) (r : Receiver)
    (language name : String) :
    x.substitute d r (x.canonical language) name = x.substitute d r language name := by
  simp only [substitute, canonical_canonical h]

lemma preloadFrom_relabel (h : x.aliases.defects = []) (ended : Lease → Bool)
    (find : String → Option Chain) (r : Report) (entries : List StandardEntry) :
    x.preloadFrom ended find r (entries.map (·.relabel x.canonical)) =
      x.preloadFrom ended find r entries := by
  induction entries generalizing x r with
  | nil => rfl
  | cons e rest ih =>
    have htarget : (e.relabel x.canonical).target = e.target := rfl
    rw [List.map_cons, preloadFrom, preloadFrom, htarget]
    cases find e.target with
    | none =>
      dsimp only
      rw [ih h]
    | some c =>
      -- the lexicon with one more pair has the same aliases
      have hadd : x.add ended c (e.relabel x.canonical).language (e.relabel x.canonical).localized
          (e.relabel x.canonical).canonical = x.add ended c e.language e.localized e.canonical :=
        add_canonical h ended c e.language e.localized e.canonical
      have hrest := ih (x := (x.add ended c e.language e.localized e.canonical).state) h
        ⟨r.installed + 1, r.unresolved, r.asked ++ [e.target]⟩
      dsimp only
      rw [hadd, ← hrest]
      rfl

lemma carryOut_relabel (h : x.aliases.defects = []) (ended : Lease → Bool) (k : Task) :
    x.carryOut ended (k.relabel x.canonical) = x.carryOut ended k := by
  cases k with
  | deed d =>
    cases d with
    | ensure c => rfl
    | add c l s t =>
      simp only [Task.relabel, Deed.relabel, carryOut, perform, deedEvents, add_canonical h]
    | remove c l s =>
      simp only [Task.relabel, Deed.relabel, carryOut, perform, deedEvents, remove_canonical h]
    | find d c l n =>
      simp only [Task.relabel, Deed.relabel, carryOut, perform, deedEvents, find_canonical h]
    | substitute d r l n =>
      simp only [Task.relabel, Deed.relabel, carryOut, perform, deedEvents, substitute_canonical h]
    | layerOf y => rfl
    | nearest c => rfl
  | canonical l => simp only [Task.relabel, carryOut, canonical_canonical h]
  | own i k => rfl
  | resolve i k => rfl
  | preload find entries => simp only [Task.relabel, carryOut, preload, preloadFrom_relabel h]

/-! ## Runs -/

/-- A run in which every language is called by the code it stands for. -/
lemma outcomes_relabel (h : x.aliases.defects = []) (us : List Occasion) :
    x.outcomes (us.map (·.relabel x.canonical)) = x.outcomes us := by
  induction us generalizing x with
  | nil => rfl
  | cons u rest ih =>
    have hfirst : x.carryOut u.ended (u.task.relabel x.canonical) = x.carryOut u.ended u.task :=
      carryOut_relabel h u.ended u.task
    have haliases := aliases_carryOut x u.ended u.task
    have hcanonical : (x.carryOut u.ended u.task).state.canonical = x.canonical := by
      funext language
      rw [canonical, haliases, canonical]
    have hrest := ih (x := (x.carryOut u.ended u.task).state) (haliases ▸ h)
    rw [List.map_cons, outcomes, outcomes, Occasion.relabel]
    dsimp only
    rw [hfirst, ← hcanonical, hrest]

end Lexicon

/-! ## What entries are filed under -/

namespace Entries

variable {t : AliasTable} {e : Entries} {language source target : String}

/-- All entries are filed under codes that stand for themselves. -/
def Filed (t : AliasTable) (e : Entries) : Prop :=
  ∀ r ∈ e.rows, t.canonical r.1.language = r.1.language

lemma filed_empty : empty.Filed t := by
  simp [Filed, empty]

lemma Filed.erase (h : e.Filed t) (k : Key) : (e.erase k).Filed t :=
  fun r hr => h r (List.mem_filter.1 hr).1

lemma Filed.insert (h : e.Filed t) {k : Key} (hk : t.canonical k.language = k.language)
    (v : String) : (e.insert k v).Filed t :=
  List.forall_mem_cons.2 ⟨hk, h.erase k⟩

lemma Filed.pair (h : e.Filed t) (hl : t.canonical language = language) (source target : String) :
    (e.pair language source target).entries.Filed t := by
  have hclear : (e.clearSource language source target).Filed t := by
    rw [clearSource]
    split
    · split
      · exact h
      · exact h.erase _
    · exact h
  refine Filed.insert (Filed.insert ?_ hl _) hl _
  split
  · exact hclear.erase _
  · exact hclear

lemma Filed.unpair (h : e.Filed t) (language source target : String) :
    (e.unpair language source target).Filed t :=
  (h.erase _).erase _

end Entries

namespace Lexicon

variable {root : ObjectId} {s : Settings} {t : AliasTable} {x : Lexicon}

/-- The lexicon has the aliases of a table, and all its entries are filed under codes that stand for
themselves. -/
structure Files (t : AliasTable) (x : Lexicon) : Prop where
  /-- The aliases are those of the table. -/
  aliases : x.aliases = t
  /-- The entries of all layers are filed. -/
  filed : ∀ l ∈ x.tree.layers, l.entries.Filed t

namespace Files

lemma ensure (h : x.Files t) (ended : Lease → Bool) (c : Chain) :
    (x.ensure ended c).state.Files t where
  aliases := h.aliases
  filed := LayerTree.forall_entries_ensure Entries.filed_empty h.filed ended c

lemma canonical_canonical (h : x.Files t) (ht : t.defects = []) (language : String) :
    t.canonical (x.canonical language) = x.canonical language := by
  rw [canonical, h.aliases]
  exact AliasTable.canonical_canonical ht language

lemma add (h : x.Files t) (ht : t.defects = []) (ended : Lease → Bool) (c : Chain)
    (language source target : String) : (x.add ended c language source target).state.Files t where
  aliases := h.aliases
  filed := forall_entries_add Entries.filed_empty h.filed ended c fun _ he =>
    he.pair (h.canonical_canonical ht language) source target

lemma remove (h : x.Files t) (ended : Lease → Bool) (c : Chain) (language source : String) :
    (x.remove ended c language source).state.Files t where
  aliases := (x.aliases_remove ended c language source).trans h.aliases
  filed := forall_entries_remove Entries.filed_empty h.filed ended c fun _ target he _ =>
    he.unpair _ source target

end Files

lemma files_start (root : ObjectId) (t : AliasTable) : (start root t).state.Files t where
  aliases := rfl
  filed := by
    intro l hl
    obtain rfl := List.mem_singleton.1 hl
    exact Entries.filed_empty

/-- The lexica that are made from settings. -/
inductive MadeFrom (root : ObjectId) (s : Settings) : Lexicon → Prop
  /-- With the aliases of the settings. -/
  | ofSettings {o : Outcome Lexicon Unit} (h : ofSettings root s = .ok o) : MadeFrom root s o.state
  /-- With the aliases and the standard entries of the settings. -/
  | launch {ended : Lease → Bool} {find : String → Option Chain} {o : Outcome Lexicon Report}
    (h : launch root s ended find = .ok o) : MadeFrom root s o.state

lemma MadeFrom.files (h : MadeFrom root s x) : s.aliases.defects = [] ∧ x.Files s.aliases := by
  cases h with
  | ofSettings h =>
    obtain ⟨hnil, rfl⟩ := ofSettings_eq_ok_iff.1 h
    exact ⟨Settings.aliases_defects_eq_nil hnil, files_start root s.aliases⟩
  | launch h =>
    obtain ⟨hnil, rfl⟩ := launch_eq_ok_iff.1 h
    have ht := Settings.aliases_defects_eq_nil hnil
    exact ⟨ht, preload_induction (fun _ c l s t hx => hx.add ht _ c l s t)
      (files_start root s.aliases) _ _⟩

/-- **A language can be called by any of its codes.**  In a lexicon that is made from settings, two
runs whose tasks are the same but for language codes that stand for the same code have the same
outcomes: the same answers, the same reports and the same states.  In particular every code can be
replaced by the one it stands for.  And in each of these states all entries are filed under codes
that stand for themselves and are not aliases. -/
theorem MadeFrom.codes_indistinguishable (h : MadeFrom root s x) :
    (∀ us vs : List Occasion,
      us.map (·.relabel x.canonical) = vs.map (·.relabel x.canonical) →
        x.outcomes us = x.outcomes vs) ∧
    (∀ us : List Occasion, x.outcomes (us.map (·.relabel x.canonical)) = x.outcomes us) ∧
    ∀ us : List Occasion, ∀ y ∈ x :: (x.outcomes us).map (·.state),
      ∀ l ∈ y.tree.layers, ∀ r ∈ l.entries.rows,
        y.canonical r.1.language = r.1.language ∧ y.aliases.contains r.1.language = false := by
  obtain ⟨ht, hfiles⟩ := h.files
  have hx : x.aliases.defects = [] := hfiles.aliases ▸ ht
  refine ⟨fun us vs hsame => ?_, outcomes_relabel hx, fun us y hy l hl r hr => ?_⟩
  · rw [← outcomes_relabel hx us, hsame, outcomes_relabel hx vs]
  · have hall := outcomes_invariant (P := Files s.aliases) (fun _ ended c hx => hx.ensure ended c)
      (fun _ ended c l s t hx => hx.add ht ended c l s t)
      (fun _ ended c l s hx => hx.remove ended c l s) hfiles us
    have hfiles' : y.Files s.aliases := by
      rcases List.mem_cons.1 hy with rfl | hmem
      · exact hfiles
      · obtain ⟨o, ho, rfl⟩ := List.mem_map.1 hmem
        exact hall o ho
    have hrow := hfiles'.filed l hl r hr
    refine ⟨?_, ?_⟩
    · rw [canonical, hfiles'.aliases]
      exact hrow
    · rw [hfiles'.aliases]
      exact AliasTable.contains_eq_false_of_canonical_eq ht hrow

/-- Settings in which German has a second code, which their entry uses. -/
def twoCodes : Settings := ⟨.ofRows [("de_AT", "de")], [⟨"home", "de_AT", "los", "go"⟩]⟩

/-- Two pairs are added to an object and one of them is looked up, with these codes for German. -/
def twoCodesRun (first second third : String) : List Occasion :=
  let c : Chain := ⟨⟨.minted 1, some 1⟩, [⟨.minted 0, none⟩]⟩
  [⟨fun _ => false, .deed (.add c first "los" "run")⟩,
    ⟨fun _ => false, .preload (fun _ => some c) [⟨"there", second, "halt", "stop"⟩]⟩,
    ⟨fun _ => false, .deed (.find .forward c third "los")⟩]

theorem MadeFrom.codes_indistinguishable_twoCodes :
    ∃ x, MadeFrom (.minted 0) twoCodes x ∧
      (twoCodesRun "de" "de" "de_AT").map (·.relabel x.canonical) =
        (twoCodesRun "de_AT" "de_AT" "de").map (·.relabel x.canonical) ∧
      x.outcomes (twoCodesRun "de" "de" "de_AT") = x.outcomes (twoCodesRun "de_AT" "de_AT" "de") ∧
      (x.outcomes (twoCodesRun "de" "de" "de_AT")).map (·.result) =
        [.text "run", .report ⟨1, 0, ["there"]⟩, .text "run"] := by
  have h := @MadeFrom.launch (.minted 0) twoCodes (fun _ => false)
    (fun _ => some ⟨⟨.minted 0, none⟩, []⟩) _ (launch_eq_ok_iff.2 ⟨by decide, rfl⟩)
  refine ⟨_, h, rfl, (MadeFrom.codes_indistinguishable h).1 _ _ rfl, ?_⟩
  decide

end Lexicon

end Glossary
