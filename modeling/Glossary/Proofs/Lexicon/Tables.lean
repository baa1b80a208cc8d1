import Glossary.Layer.Graft
import Glossary.Proofs.Layer.Pairing

/-!
# Tables of pairs

What a lexicon says can be said without layers: each object has, for each language, a table of
pairs of names.  A pair is added to the table of one object, and a name is looked up in the tables
along a path, which is the delegation chain of an object as far as the root object, and then the
root object itself.

`Shows` ties the entries of a layer to the tables of one object.
-/

namespace Glossary

/-- A table of pairs for each object and language. -/
abbrev Tables := ObjectId → String → List (String × String)

namespace Tables

variable (T : Tables) (o : ObjectId) (language : String)

/-- All tables are empty. -/
def empty : Tables := fun _ _ => []

/-- Replaces one table. -/
def set (rows : List (String × String)) : Tables :=
  fun x l => if x = o ∧ l = language then rows else T x l

/-- Puts a pair into a table, from which every pair with one of the two names is dropped. -/
def add (source target : String) : Tables :=
  T.set o language
    ((source, target) :: (T o language).filter fun p => p.1 ≠ source ∧ p.2 ≠ target)

/-- Drops the pair of a localized name from a table. -/
def remove (source : String) : Tables :=
  T.set o language ((T o language).filter fun p => p.1 ≠ source)

/-- What a table has for a name, in one of the two directions. -/
def get? (d : Direction) (name : String) : Option String :=
  match d with
  | .forward => ((T o language).find? fun p => p.1 = name).map (·.2)
  | .reverse => ((T o language).find? fun p => p.2 = name).map (·.1)

/-- The objects of a chain that come before the root object. -/
def before (root : ObjectId) (links : List Link) : List Link := links.takeWhile (·.id ≠ root)

/-- The objects whose tables are asked, one after another. -/
def path (root : ObjectId) (links : List Link) : List ObjectId :=
  (before root links).map (·.id) ++ [root]

/-- What the first table along a path has for a name. -/
def find? (root : ObjectId) (links : List Link) (d : Direction) (name : String) : Option String :=
  (path root links).findSome? fun o => T.get? o language d name

/-- The name to use in place of another one. -/
def substitute (root : ObjectId) (links : List Link) (d : Direction) (name : String) : String :=
  match T.find? language root links d name with
  | some value => if value.isEmpty then name else value
  | none => name

variable {T o language}

lemma set_of_ne {x : ObjectId} (h : x ≠ o) (rows : List (String × String)) :
    T.set o language rows x = T x := by
  funext l
  rw [set, if_neg fun hc => h hc.1]

lemma mem_set {rows : List (String × String)} {l : String} {p : String × String} :
    p ∈ T.set o language rows o l ↔ if l = language then p ∈ rows else p ∈ T o l := by
  by_cases hl : l = language
  · simp [set, hl]
  · simp [set, hl]

lemma mem_add {source target l : String} {p : String × String} :
    p ∈ T.add o language source target o l ↔
      if l = language then
        p = (source, target) ∨ (p ∈ T o language ∧ p.1 ≠ source ∧ p.2 ≠ target)
      else p ∈ T o l := by
  rw [add, mem_set]
  simp

lemma mem_remove {source l : String} {p : String × String} :
    p ∈ T.remove o language source o l ↔
      if l = language then p ∈ T o language ∧ p.1 ≠ source else p ∈ T o l := by
  rw [remove, mem_set]
  simp

/-- Where a localized name has no pair there is nothing to drop. -/
lemma remove_of_get?_eq_none {source : String} (h : T.get? o language .forward source = none) :
    T.remove o language source = T := by
  have hrows : (T o language).filter (fun p => p.1 ≠ source) = T o language := by
    refine List.filter_eq_self.2 fun p hp => ?_
    have hfind := List.find?_eq_none.1 (Option.map_eq_none_iff.1 h) p hp
    simpa using hfind
  funext x l
  rw [remove, hrows, set]
  split
  · next hxl => rw [hxl.1, hxl.2]
  · rfl

lemma before_cons_of_ne {root : ObjectId} {x : Link} (h : x.id ≠ root) (links : List Link) :
    before root (x :: links) = x :: before root links := by
  simp [before, h]

lemma self_mem_before {root : ObjectId} {x : Link} (h : x.id ≠ root) (links : List Link) :
    x ∈ before root (x :: links) := by
  rw [before_cons_of_ne h]
  exact List.mem_cons_self

lemma mem_before_cons {root : ObjectId} {x y : Link} (h : x.id ≠ root) {links : List Link}
    (hy : y ∈ before root links) : y ∈ before root (x :: links) := by
  rw [before_cons_of_ne h]
  exact List.mem_cons_of_mem _ hy

/-- The path from an object other than the root goes on with the path from the next one. -/
lemma path_cons_of_ne {root : ObjectId} {x : Link} (h : x.id ≠ root) (links : List Link) :
    path root (x :: links) = x.id :: path root links := by
  simp [path, before_cons_of_ne h]

lemma path_cons_of_eq {root : ObjectId} {x : Link} (h : x.id = root) (links : List Link) :
    path root (x :: links) = [root] := by
  simp [path, before, h]

lemma find?_nil (root : ObjectId) (d : Direction) (name : String) :
    T.find? language root [] d name = T.get? root language d name := by
  cases h : T.get? root language d name <;> simp [find?, path, before, h]

lemma find?_cons_of_eq {root : ObjectId} {x : Link} (h : x.id = root) (links : List Link)
    (d : Direction) (name : String) :
    T.find? language root (x :: links) d name = T.get? root language d name := by
  cases hv : T.get? root language d name <;> simp [find?, path_cons_of_eq h, hv]

lemma find?_cons_of_ne {root : ObjectId} {x : Link} (h : x.id ≠ root) (links : List Link)
    (d : Direction) (name : String) :
    T.find? language root (x :: links) d name =
      (T.get? x.id language d name).or (T.find? language root links d name) := by
  cases hv : T.get? x.id language d name <;> simp [find?, path_cons_of_ne h, hv]

end Tables

namespace Entries

variable {e : Entries} {T : Tables} {o : ObjectId}

/-- The entries of a layer are the pairs of tables, one for each language. -/
structure Shows (e : Entries) (rows : String → List (String × String)) : Prop where
  /-- The forward entries are the pairs. -/
  forward : ∀ language source target,
    e.get? (.forward language source) = some target ↔ (source, target) ∈ rows language
  /-- The reverse entries are the pairs. -/
  reverse : ∀ language source target,
    e.get? (.reverse language target) = some source ↔ (source, target) ∈ rows language

lemma shows_empty {rows : String → List (String × String)} (h : ∀ language, rows language = []) :
    empty.Shows rows := by
  constructor <;> simp [h]

lemma Shows.paired {rows : String → List (String × String)} (h : e.Shows rows) : e.Paired := by
  intro language source target
  rw [h.forward, h.reverse]

/-- A key has in the layer what the name has in the table. -/
lemma Shows.get?_eq (h : e.Shows (T o)) (d : Direction) (language name : String) :
    e.get? ⟨d, language, name⟩ = T.get? o language d name := by
  cases d with
  | forward =>
    rw [Tables.get?]
    cases hp : (T o language).find? fun p => p.1 = name with
    | some p =>
      have hname : p.1 = name := by simpa using List.find?_some hp
      exact (h.forward language name p.2).2 (hname ▸ List.mem_of_find?_eq_some hp)
    | none =>
      refine Option.eq_none_iff_forall_ne_some.2 fun target htarget => ?_
      have hmem := (h.forward language name target).1 htarget
      simpa using List.find?_eq_none.1 hp _ hmem
  | reverse =>
    rw [Tables.get?]
    cases hp : (T o language).find? fun p => p.2 = name with
    | some p =>
      have hname : p.2 = name := by simpa using List.find?_some hp
      exact (h.reverse language p.1 name).2 (hname ▸ List.mem_of_find?_eq_some hp)
    | none =>
      refine Option.eq_none_iff_forall_ne_some.2 fun source hsource => ?_
      have hmem := (h.reverse language source name).1 hsource
      simpa using List.find?_eq_none.1 hp _ hmem

/-- Adding a pair to the layer is adding it to the table. -/
lemma Shows.pair (h : e.Shows (T o)) (language source target : String) :
    (e.pair language source target).entries.Shows (T.add o language source target o) where
  forward := by
    intro l a b
    rw [get?_pair_forward h.paired, Tables.mem_add]
    have hb := h.forward language a b
    have ht := h.forward language a target
    by_cases hl : l = language
    · subst hl
      -- each of the two names is one of the new pair or not
      by_cases ha : a = source <;> by_cases hbt : b = target <;> grind
    · simp only [hl, false_and, if_false]
      exact h.forward l a b
  reverse := by
    intro l a b
    rw [get?_pair_reverse h.paired, Tables.mem_add]
    have ha := h.reverse language a b
    have hs := h.reverse language source b
    by_cases hl : l = language
    · subst hl
      by_cases ha : a = source <;> by_cases hbt : b = target <;> grind
    · simp only [hl, false_and, if_false]
      exact h.reverse l a b

/-- Removing a pair from the layer is dropping it from the table. -/
lemma Shows.unpair (h : e.Shows (T o)) {language source target : String}
    (hpair : e.get? (.forward language source) = some target) :
    (e.unpair language source target).Shows (T.remove o language source o) where
  forward := by
    intro l a b
    rw [get?_unpair_forward, Tables.mem_remove]
    have hab := h.forward language a b
    by_cases hl : l = language
    · subst hl
      by_cases ha : a = source
      · simp [ha]
      · simpa [ha] using hab
    · simp only [hl, false_and, if_false]
      exact h.forward l a b
  reverse := by
    intro l a b
    rw [get?_unpair_reverse, Tables.mem_remove]
    have hab := h.reverse language a b
    have hst := h.paired language source target
    have hsb := h.paired language source b
    by_cases hl : l = language
    · subst hl
      by_cases ha : a = source <;> by_cases hb : b = target <;> grind
    · simp only [hl, false_and, if_false]
      exact h.reverse l a b

end Entries

end Glossary
