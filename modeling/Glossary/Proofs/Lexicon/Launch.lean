import Glossary.Proofs.Layer.Busy
import Glossary.Proofs.Lexicon.Reachable
import Glossary.Proofs.Lexicon.Tables
import Mathlib.Data.List.Induction

/-!
# What a launched lexicon says

Standard entries are put in place one after another, and a later one may drive out earlier ones with
either of its names.  As tables the outcome is easily told: a pair is there if some entry put it
there and no later entry for the same object and language has one of its two names with another
partner.  This is `mem_foldl_install`.

The layers bear these tables (`Bears`).  Layers are pruned on the way, but as long as the leases of
the objects that receive entries have not ended no layer is ever idle, so that nothing gets lost.
-/

namespace Glossary

/-! ## Tables -/

section Tables

variable (canonical : String → String) (find : String → Option Chain)

/-- An entry is for an object and a language. -/
def StandardEntry.Serves (o : ObjectId) (language : String) (e : StandardEntry) : Prop :=
  (∃ c, find e.target = some c ∧ c.self.id = o) ∧ canonical e.language = language

/-- Among some of the entries, one has a pair of names, and no later one has only one of the two. -/
def StandardEntry.Lasts (p : StandardEntry → Prop) (source target : String)
    (entries : List StandardEntry) : Prop :=
  ∃ earlier e later, entries = earlier ++ e :: later ∧ p e ∧ e.localized = source ∧
    e.canonical = target ∧ ∀ f ∈ later, p f →
      ¬ (f.localized = source ∧ f.canonical ≠ target) ∧
      ¬ (f.canonical = target ∧ f.localized ≠ source)

/-- Puts a standard entry into the table of its object. -/
def Tables.install (T : Tables) (e : StandardEntry) : Tables :=
  match find e.target with
  | some c => T.add c.self.id (canonical e.language) e.localized e.canonical
  | none => T

end Tables

namespace StandardEntry

variable {canonical : String → String} {find : String → Option Chain} {o : ObjectId}
  {language source target : String} {p : StandardEntry → Prop}

/-- The last entry has the pair, or it leaves the pair that lasted before. -/
lemma lasts_concat (entries : List StandardEntry) (e : StandardEntry) :
    Lasts p source target (entries ++ [e]) ↔
      (p e ∧ e.localized = source ∧ e.canonical = target) ∨
        (Lasts p source target entries ∧ (p e →
          ¬ (e.localized = source ∧ e.canonical ≠ target) ∧
          ¬ (e.canonical = target ∧ e.localized ≠ source))) := by
  constructor
  · rintro ⟨earlier, f, later, hsplit, hp, hs, ht, hlater⟩
    rcases List.eq_nil_or_concat later with rfl | ⟨later, g, rfl⟩
    · obtain ⟨-, heq⟩ := List.append_inj' hsplit rfl
      obtain rfl := List.singleton_inj.1 heq
      exact Or.inl ⟨hp, hs, ht⟩
    · rw [List.concat_eq_append, ← List.cons_append, ← List.append_assoc] at hsplit
      obtain ⟨hentries, heq⟩ := List.append_inj' hsplit rfl
      obtain rfl := List.singleton_inj.1 heq
      refine Or.inr ⟨⟨earlier, f, later, hentries, hp, hs, ht, fun h hh => ?_⟩, ?_⟩
      · exact hlater h (by simp [hh])
      · exact hlater e (by simp)
  · rintro (⟨hp, hs, ht⟩ | ⟨⟨earlier, f, later, rfl, hp, hs, ht, hlater⟩, he⟩)
    · exact ⟨entries, e, [], rfl, hp, hs, ht, by simp⟩
    · refine ⟨earlier, f, later ++ [e], by simp, hp, hs, ht, fun g hg => ?_⟩
      rcases List.mem_append.1 hg with hg | hg
      · exact hlater g hg
      · obtain rfl := List.mem_singleton.1 hg
        exact he

end StandardEntry

namespace Tables

variable {canonical : String → String} {find : String → Option Chain} {o : ObjectId}
  {language source target : String} {T : Tables}

lemma mem_install_of_serves {e : StandardEntry} (h : e.Serves canonical find o language) :
    (source, target) ∈ T.install canonical find e o language ↔
      (e.localized = source ∧ e.canonical = target) ∨
        ((source, target) ∈ T o language ∧ e.localized ≠ source ∧ e.canonical ≠ target) := by
  obtain ⟨⟨c, hc, rfl⟩, rfl⟩ := h
  rw [install, hc]
  simp only [mem_add, if_true, Prod.mk.injEq]
  grind

lemma mem_install_of_not_serves {e : StandardEntry} (h : ¬ e.Serves canonical find o language) :
    (source, target) ∈ T.install canonical find e o language ↔ (source, target) ∈ T o language := by
  rw [install]
  cases hc : find e.target with
  | none => rfl
  | some c =>
    by_cases ho : c.self.id = o
    · subst ho
      have hl : language ≠ canonical e.language := fun hl => h ⟨⟨c, hc, rfl⟩, hl.symm⟩
      simp only [mem_add, hl, if_false]
    · simp only [add, set_of_ne (Ne.symm ho)]

/-- The pairs of a table are those that last. -/
lemma mem_foldl_install (entries : List StandardEntry) :
    (source, target) ∈ entries.foldl (install canonical find) .empty o language ↔
      StandardEntry.Lasts (StandardEntry.Serves canonical find o language) source target entries := by
  -- from the end, since a later entry drives out earlier ones
  induction entries using List.reverseRecOn with
  | nil => simp [Tables.empty, StandardEntry.Lasts]
  | append_singleton entries e ih =>
    rw [List.foldl_append, List.foldl_cons, List.foldl_nil, StandardEntry.lasts_concat, ← ih]
    by_cases he : e.Serves canonical find o language
    · rw [mem_install_of_serves he]
      grind
    · rw [mem_install_of_not_serves he]
      grind

end Tables

/-! ## Layers -/

namespace LayerTree

variable {root : ObjectId} {ended : Lease → Bool} {T : Tables} {t : LayerTree} {i : LayerId}
  {l : Layer} {c : Chain}

/-- The layers of a tree bear tables: each shows those of its owner, and the others are empty. -/
structure Bears (root : ObjectId) (T : Tables) (t : LayerTree) : Prop where
  /-- The tree is well formed. -/
  wellFormed : t.WellFormed root
  /-- A layer shows the tables of its owner. -/
  shown : ∀ l ∈ t.layers, l.entries.Shows (T l.owner)
  /-- An object without a layer has empty tables. -/
  blank : ∀ o, t.layerOf? o = none → ∀ language, T o language = []

namespace Bears

lemma graft (h : t.Bears root T) {x : Link} {parent : LayerId} {p : Layer}
    (hp : t.layer? parent = some p) (hx : t.layerOf? x.id = none) :
    (t.graft x parent).Bears root T where
  wellFormed := h.wellFormed.graft hp hx
  shown := by
    intro m hm
    rcases mem_graft.1 hm with rfl | ⟨l, hl, rfl⟩
    · exact Entries.shows_empty (h.blank x.id hx)
    · simpa using h.shown l hl
  blank := by
    intro o ho
    rw [layerOf?_graft] at ho
    split at ho
    · cases ho
    · exact h.blank o ho

lemma graftAll (h : t.Bears root T) {parent : LayerId} {p : Layer} (hp : t.layer? parent = some p)
    {xs : List Link} (hxs : t.Bare xs) : (t.graftAll parent xs).state.Bears root T := by
  induction xs generalizing t parent p with
  | nil => exact h
  | cons x rest ih =>
    exact ih (h.graft hp hxs.head) (layer?_graft_self t x parent) (hxs.graft parent)

lemma grow (h : t.Bears root T) (c : Chain) : (t.grow c).state.Bears root T := by
  obtain ⟨p, hp⟩ := h.wellFormed.anchor_exists c.links
  exact h.graftAll hp (surveyed (bare_nil _) c.links).bare

/-- Where no layer is idle, pruning changes nothing that matters. -/
lemma tidy (h : t.Bears root T) (hbusy : t.Busy ended) :
    (t.tidy ended).Bears root T ∧ (t.tidy ended).Busy ended := by
  have hwf := h.wellFormed.tidy ended
  obtain ⟨n, htidy⟩ := hbusy.tidy_eq h.wellFormed
  rw [htidy] at hwf ⊢
  exact ⟨⟨hwf, h.shown, h.blank⟩, hbusy⟩

lemma ensure (h : t.Bears root T) (hbusy : t.Busy ended) (hself : c.self.lease.any ended = false) :
    (t.ensure ended c).state.Bears root T ∧ (t.ensure ended c).state.Busy ended := by
  obtain ⟨htidy, hbusy'⟩ := h.tidy hbusy
  exact ⟨htidy.grow c, hbusy'.grow htidy.wellFormed hself⟩

/-- New entries in one layer are new tables of its owner. -/
lemma setEntries (h : t.Bears root T) (hl : t.layer? i = some l) {e : Entries} {T' : Tables}
    (he : e.Shows (T' l.owner)) (hothers : ∀ o, o ≠ l.owner → T' o = T o) :
    (t.setEntries i e).Bears root T' where
  wellFormed := h.wellFormed.setEntries i e
  shown := by
    intro m hm
    obtain ⟨k, hk, rfl⟩ := List.mem_map.1 hm
    by_cases hid : k.id = i
    · have hkl := h.wellFormed.layer?_id hk
      rw [hid, hl] at hkl
      obtain rfl := Option.some.inj hkl
      simpa [hid] using he
    · have howner : k.owner ≠ l.owner := by
        intro ho
        exact hid ((h.wellFormed.single k hk l (mem_of_layer? hl) ho).trans (id_of_layer? hl))
      simpa [hid, hothers k.owner howner] using h.shown k hk
  blank := by
    intro o ho language
    have howner : o ≠ l.owner := by
      rintro rfl
      rw [layerOf?_setEntries, h.wellFormed.layerOf?_owner hl] at ho
      cases ho
    rw [hothers o howner]
    exact h.blank o ho language

/-- An object's own entries are its tables. -/
lemma own?_eq_some_iff (h : t.Bears root T) {o : ObjectId} {language source target : String} :
    (∃ i, t.layerOf? o = some i ∧ t.own? i (.forward language source) = some target) ↔
      (source, target) ∈ T o language := by
  cases ho : t.layerOf? o with
  | none => simp [h.blank o ho language]
  | some i =>
    obtain ⟨l, hl, rfl⟩ := h.wellFormed.layer?_of_layerOf? ho
    have hshows := h.shown l (mem_of_layer? hl)
    simp only [Option.some.injEq, exists_eq_left', own?, entriesOf_of_layer? hl]
    exact hshows.forward language source target

/-- The layer of an object whose tables are empty has no entries. -/
lemma own?_eq_none (h : t.Bears root T) {o : ObjectId} (ho : t.layerOf? o = some i)
    (hempty : ∀ language, T o language = []) (k : Key) : t.own? i k = none := by
  obtain ⟨l, hl, rfl⟩ := h.wellFormed.layer?_of_layerOf? ho
  rw [own?, entriesOf_of_layer? hl, (h.shown l (mem_of_layer? hl)).get?_eq]
  cases k.direction <;> simp [Tables.get?, hempty]

end Bears

lemma bears_start (root : ObjectId) : (start root).Bears root .empty where
  wellFormed := wellFormed_start root
  shown := by
    intro l hl
    obtain rfl := List.mem_singleton.1 hl
    exact Entries.shows_empty fun _ => rfl
  blank := fun _ _ _ => rfl

end LayerTree

namespace Lexicon

variable {root : ObjectId} {s : Settings} {ended : Lease → Bool} {find : String → Option Chain}
  {T : Tables} {x : Lexicon} {c : Chain}

lemma bears_add (h : x.tree.Bears root T) (hbusy : x.tree.Busy ended)
    (hself : c.self.lease.any ended = false) (language source target : String) :
    (x.add ended c language source target).state.tree.Bears root
        (T.add c.self.id (x.canonical language) source target) ∧
      (x.add ended c language source target).state.tree.Busy ended := by
  obtain ⟨hensure, hbusy'⟩ := h.ensure hbusy hself
  obtain ⟨l, hl, howner⟩ := h.wellFormed.layer?_ensure ended c
  refine ⟨?_, hbusy'.setEntries _ _⟩
  rw [← howner]
  refine hensure.setEntries hl ?_ fun o ho => Tables.set_of_ne ho _
  rw [LayerTree.entriesOf_of_layer? hl]
  exact (hensure.shown l (LayerTree.mem_of_layer? hl)).pair _ source target

/-- The layers bear the tables into which the entries are put. -/
lemma bears_foldl_install (h : x.tree.Bears root T) (hbusy : x.tree.Busy ended)
    (hlive : ∀ path c, find path = some c → c.self.lease.any ended = false)
    (entries : List StandardEntry) :
    (entries.foldl (install ended find) x).tree.Bears root
      (entries.foldl (Tables.install x.canonical find) T) := by
  induction entries generalizing x T with
  | nil => exact h
  | cons e rest ih =>
    rw [List.foldl_cons, List.foldl_cons, install, Tables.install]
    cases hc : find e.target with
    | none => exact ih h hbusy
    | some c =>
      obtain ⟨hadd, hbusy'⟩ := bears_add h hbusy (hlive _ c hc) e.language e.localized e.canonical
      exact ih hadd hbusy'

/-- What is reported of entries that are put in place. -/
lemma result_preloadFrom (x : Lexicon) (ended : Lease → Bool) (find : String → Option Chain)
    (r : Report) (entries : List StandardEntry) :
    (x.preloadFrom ended find r entries).result =
      ⟨r.installed + entries.countP fun e => (find e.target).isSome,
        r.unresolved + entries.countP fun e => (find e.target).isNone,
        r.asked ++ entries.map (·.target)⟩ := by
  induction entries generalizing x r with
  | nil => simp [preloadFrom]
  | cons e rest ih =>
    rw [preloadFrom]
    cases hc : find e.target with
    | none =>
      dsimp only
      rw [ih]
      simp [hc, Nat.add_assoc, Nat.add_comm 1]
    | some c =>
      dsimp only
      rw [ih]
      simp [hc, Nat.add_assoc, Nat.add_comm 1]

lemma result_preload (x : Lexicon) (ended : Lease → Bool) (find : String → Option Chain)
    (entries : List StandardEntry) :
    (x.preload ended find entries).result =
      ⟨entries.countP fun e => (find e.target).isSome,
        entries.countP fun e => (find e.target).isNone, entries.map (·.target)⟩ := by
  rw [preload, result_preloadFrom]
  simp [Report.none]

lemma launch_eq_error_iff {ds : List Defect} :
    launch root s ended find = .error ds ↔ s.check = .error ds := by
  rw [launch, ofSettings]
  cases s.check <;> simp

/-- **What a launched lexicon says.**  Settings with defects are refused with these, whatever the
paths of their entries stand for.  Other settings are launched: the path of each entry is looked up
once and in order, the entries are counted, and, if no object that receives an entry is ended, an
object has a pair of its own exactly if it is the pair of an entry and no later entry for the same
object and language has one of its two names with another partner.  The layers of objects that
receive no entry are empty. -/
theorem launch_outcome (root : ObjectId) (s : Settings) (ended : Lease → Bool)
    (find : String → Option Chain)
    (hlive : ∀ path c, find path = some c → c.self.lease.any ended = false) :
    (∀ ds ended' find', launch root s ended' find' = .error ds ↔ s.check = .error ds) ∧
    (s.check = .ok s → ∃ o, launch root s ended find = .ok o ∧
      o.result =
        { installed := s.standard.countP fun e => (find e.target).isSome
          unresolved := s.standard.countP fun e => (find e.target).isNone
          asked := s.standard.map (·.target) } ∧
      (∀ object language source target,
        (∃ i, o.state.tree.layerOf? object = some i ∧
          o.state.tree.own? i (.forward language source) = some target) ↔
        StandardEntry.Lasts (StandardEntry.Serves s.aliases.canonical find object language)
          source target s.standard) ∧
      ∀ object i, o.state.tree.layerOf? object = some i →
        (∀ e ∈ s.standard, ∀ c, find e.target = some c → c.self.id ≠ object) →
          ∀ k, o.state.tree.own? i k = none) := by
  refine ⟨fun ds ended' find' => launch_eq_error_iff, fun hok => ?_⟩
  obtain ⟨hnil, -⟩ := Settings.check_eq_ok_iff.1 hok
  let x := (Lexicon.start root s.aliases).state
  have hbears : (x.preload ended find s.standard).state.tree.Bears root
      (s.standard.foldl (Tables.install s.aliases.canonical find) .empty) := by
    rw [preload_state]
    exact bears_foldl_install (x := x) (LayerTree.bears_start root)
      (LayerTree.busy_start ended root) hlive s.standard
  refine ⟨_, launch_eq_ok_iff.2 ⟨hnil, rfl⟩, result_preload x ended find s.standard, ?_, ?_⟩
  · intro object language source target
    exact hbears.own?_eq_some_iff.trans (Tables.mem_foldl_install s.standard)
  · intro object i hi hnone k
    refine hbears.own?_eq_none hi (fun language => List.eq_nil_iff_forall_not_mem.2 ?_) k
    rintro ⟨source, target⟩ hmem
    obtain ⟨earlier, e, later, hsplit, ⟨⟨c, hc, hid⟩, -⟩, -⟩ :=
      (Tables.mem_foldl_install s.standard).1 hmem
    exact hnone e (by simp [hsplit]) c hc hid

/-- Entries of which the second drives out the first, the third has an unknown object and the last
gives the same object a pair in another language. -/
def rivals : Settings where
  aliases := .ofRows [("de_AT", "de")]
  standard :=
    [⟨"home", "de", "los", "go"⟩, ⟨"house", "de_AT", "lauf", "go"⟩, ⟨"nowhere", "de", "halt", "stop"⟩,
      ⟨"home", "fr", "los", "go"⟩]

/-- Two paths stand for one object. -/
def rivalPaths (path : String) : Option Chain :=
  if path = "nowhere" then none else some ⟨⟨.minted 1, some 1⟩, [⟨.minted 2, some 2⟩]⟩

theorem launch_outcome_rivals :
    (∀ path c, rivalPaths path = some c → c.self.lease.any (· = 2) = false) ∧
    rivals.check = .ok rivals ∧
    ∃ o, launch (.minted 0) rivals (· = 2) rivalPaths = .ok o ∧
      o.result = ⟨3, 1, ["home", "house", "nowhere", "home"]⟩ ∧
      ∃ i, o.state.tree.layerOf? (.minted 1) = some i ∧
        o.state.tree.own? i (.forward "de" "lauf") = some "go" := by
  have hlive : ∀ path c, rivalPaths path = some c → c.self.lease.any (· = 2) = false := by
    intro path c hc
    rw [rivalPaths] at hc
    split at hc
    · cases hc
    · cases hc
      rfl
  have hcheck : rivals.check = .ok rivals := Settings.check_eq_ok_iff.2 ⟨by decide, rfl⟩
  obtain ⟨o, ho, hresult, hown, -⟩ :=
    (launch_outcome (.minted 0) rivals (· = 2) rivalPaths hlive).2 hcheck
  refine ⟨hlive, hcheck, o, ho, hresult.trans (by decide), (hown _ _ _ _).2 ?_⟩
  refine ⟨rivals.standard.take 1, ⟨"house", "de_AT", "lauf", "go"⟩, rivals.standard.drop 2, rfl,
    ⟨⟨_, rfl, rfl⟩, by decide⟩, rfl, rfl, ?_⟩
  -- neither of the later entries is for this object and in this language
  rintro f hf ⟨⟨c, hc, -⟩, hl⟩
  obtain rfl | rfl : f = ⟨"nowhere", "de", "halt", "stop"⟩ ∨ f = ⟨"home", "fr", "los", "go"⟩ := by
    simpa [rivals] using hf
  · cases hc
  · exact absurd hl (by decide)

end Lexicon

end Glossary
