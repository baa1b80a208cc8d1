import Glossary.Layer.Entries
import Mathlib.Logic.Basic

/-!
# Pairs in a layer

A pair of names is kept as two entries, one in each direction, and no entry stands alone:
`OneToOne` says this, and also that no key occurs twice.  Where it holds, adding a pair does
exactly what one expects of a one-to-one table: `get?_pair_forward` and `get?_pair_reverse` say
that every pair with one of the two names is dropped and the new pair put in.  The order in which
`pair` clears up to four keys has no bearing on that.
-/

namespace Glossary

namespace Entries

variable {e : Entries} {language source target : String}

/-- The forward entry of a pair is there exactly if the reverse entry is. -/
def Paired (e : Entries) : Prop :=
  ∀ language source target, e.get? (.forward language source) = some target ↔
    e.get? (.reverse language target) = some source

/-! ## Adding a pair -/

lemma get?_clearSource_forward (e : Entries) (language source target l name : String) :
    (e.clearSource language source target).get? (.forward l name) = e.get? (.forward l name) := by
  rw [clearSource]
  split
  · split
    · rfl
    · rw [get?_erase, if_neg (by simp)]
  · rfl

lemma get?_clearSource_reverse (h : e.Paired) (language source target l name : String) :
    (e.clearSource language source target).get? (.reverse l name) =
      if l = language ∧ name ≠ target ∧ e.get? (.reverse language name) = some source then none
      else e.get? (.reverse l name) := by
  simp only [← h language source name, clearSource]
  cases hp : e.get? (.forward language source) with
  | none => simp
  | some previous =>
    by_cases hpt : previous = target
    · subst hpt
      have hno : ¬ (l = language ∧ name ≠ previous ∧ some previous = some name) := by
        rintro ⟨-, hne, heq⟩
        exact hne (Option.some.inj heq).symm
      rw [if_neg hno]
      simp only [if_true]
    · simp only [if_neg hpt, get?_erase, Key.mk.injEq, true_and, Option.some.injEq]
      by_cases hl : l = language ∧ name = previous
      · obtain ⟨rfl, rfl⟩ := hl
        simp [hpt]
      · have hno : ¬ (l = language ∧ name ≠ target ∧ previous = name) :=
          fun hc => hl ⟨hc.1, hc.2.2.symm⟩
        rw [if_neg hl, if_neg hno]

/-- The name that has to give way is the other one that is paired with the target. -/
lemma rival?_clearSource (h : e.Paired) (language source target other : String) :
    (e.clearSource language source target).rival? language source target = some other ↔
      e.get? (.forward language other) = some target ∧ other ≠ source := by
  rw [rival?, get?_clearSource_reverse h, if_neg (by simp), h language other target]
  simp [Option.filter_eq_some_iff]

lemma get?_pair (e : Entries) (language source target : String) (k : Key) :
    (e.pair language source target).entries.get? k =
      if k = .reverse language target then some source
      else if k = .forward language source then some target
      else if ((e.clearSource language source target).rival? language source target).map
        (Key.forward language) = some k then none
      else (e.clearSource language source target).get? k := by
  simp only [pair]
  cases (e.clearSource language source target).rival? language source target with
  | none => simp
  | some other => simp [eq_comm]

/-- Adding a pair, seen from the localized names. -/
lemma get?_pair_forward (h : e.Paired) (language source target l name : String) :
    (e.pair language source target).entries.get? (.forward l name) =
      if l = language ∧ name = source then some target
      else if l = language ∧ e.get? (.forward language name) = some target then none
      else e.get? (.forward l name) := by
  rw [get?_pair, get?_clearSource_forward, if_neg (by simp)]
  simp only [Key.mk.injEq, true_and]
  by_cases hnew : l = language ∧ name = source
  · rw [if_pos hnew, if_pos hnew]
  · rw [if_neg hnew, if_neg hnew]
    refine if_congr ?_ rfl rfl
    rw [Option.map_eq_some_iff]
    constructor
    · rintro ⟨other, hother, hk⟩
      obtain ⟨-, rfl, rfl⟩ := Key.mk.inj hk
      exact ⟨rfl, ((rival?_clearSource h language source target other).1 hother).1⟩
    · rintro ⟨rfl, hname⟩
      refine ⟨name, ?_, rfl⟩
      exact (rival?_clearSource h l source target name).2 ⟨hname, fun hs => hnew ⟨rfl, hs⟩⟩

/-- Adding a pair, seen from the canonical names. -/
lemma get?_pair_reverse (h : e.Paired) (language source target l name : String) :
    (e.pair language source target).entries.get? (.reverse l name) =
      if l = language ∧ name = target then some source
      else if l = language ∧ e.get? (.reverse language name) = some source then none
      else e.get? (.reverse l name) := by
  have hother : ((e.clearSource language source target).rival? language source target).map
      (Key.forward language) ≠ some (.reverse l name) := by
    intro hk
    obtain ⟨other, -, hx⟩ := Option.map_eq_some_iff.1 hk
    cases hx
  rw [get?_pair, get?_clearSource_reverse h, if_neg hother]
  simp only [Key.mk.injEq, true_and, reduceCtorEq, false_and, if_false]
  by_cases hnew : l = language ∧ name = target
  · rw [if_pos hnew, if_pos hnew]
  · rw [if_neg hnew, if_neg hnew]
    refine if_congr ?_ rfl rfl
    constructor
    · rintro ⟨hl, -, hname⟩
      exact ⟨hl, hname⟩
    · rintro ⟨rfl, hname⟩
      exact ⟨rfl, fun ht => hnew ⟨rfl, ht⟩, hname⟩

lemma Paired.pair (h : e.Paired) (language source target : String) :
    (e.pair language source target).entries.Paired := by
  intro l a b
  rw [get?_pair_forward h, get?_pair_reverse h]
  by_cases hl : l = language
  · subst hl
    have hab := h l a b
    have hat := h l a target
    have hsb := h l source b
    -- four cases: each of the two names is one of the new pair or not
    by_cases ha : a = source <;> by_cases hb : b = target <;> grind
  · simp only [hl, false_and, if_false]
    exact h l a b

/-! ## Removing a pair -/

lemma get?_unpair_forward (e : Entries) (language source target l name : String) :
    (e.unpair language source target).get? (.forward l name) =
      if l = language ∧ name = source then none else e.get? (.forward l name) := by
  simp [unpair]

lemma get?_unpair_reverse (e : Entries) (language source target l name : String) :
    (e.unpair language source target).get? (.reverse l name) =
      if l = language ∧ name = target then none else e.get? (.reverse l name) := by
  simp [unpair]

/-- Removing both entries of a pair leaves no entry alone. -/
lemma Paired.unpair (h : e.Paired) (hpair : e.get? (.forward language source) = some target) :
    (e.unpair language source target).Paired := by
  intro l a b
  rw [get?_unpair_forward, get?_unpair_reverse]
  by_cases hl : l = language
  · subst hl
    have hab := h l a b
    have hst := h l source target
    by_cases ha : a = source <;> by_cases hb : b = target <;> grind
  · simp only [hl, false_and, if_false]
    exact h l a b

/-! ## One to one -/

/-- No key occurs twice, and no entry stands alone. -/
structure OneToOne (e : Entries) : Prop where
  /-- No key occurs twice. -/
  keyed : (e.rows.map (·.1)).Nodup
  /-- The forward entry of a pair is there exactly if the reverse entry is. -/
  paired : e.Paired

lemma oneToOne_empty : empty.OneToOne where
  keyed := List.nodup_nil
  paired := by simp [Paired]

lemma keyed_erase (h : (e.rows.map (·.1)).Nodup) (k : Key) :
    ((e.erase k).rows.map (·.1)).Nodup :=
  h.sublist (List.filter_sublist.map _)

lemma keyed_insert (h : (e.rows.map (·.1)).Nodup) (k : Key) (v : String) :
    ((e.insert k v).rows.map (·.1)).Nodup := by
  refine List.nodup_cons.2 ⟨?_, keyed_erase h k⟩
  intro hk
  obtain ⟨r, hr, hrk⟩ := List.mem_map.1 hk
  have := (List.mem_filter.1 hr).2
  simp [hrk] at this

lemma keyed_clearSource (h : (e.rows.map (·.1)).Nodup) (language source target : String) :
    ((e.clearSource language source target).rows.map (·.1)).Nodup := by
  rw [clearSource]
  split
  · split
    · exact h
    · exact keyed_erase h _
  · exact h

lemma OneToOne.pair (h : e.OneToOne) (language source target : String) :
    (e.pair language source target).entries.OneToOne where
  keyed := by
    have hclear := keyed_clearSource h.keyed language source target
    refine keyed_insert (keyed_insert ?_ _ _) _ _
    split
    · exact keyed_erase hclear _
    · exact hclear
  paired := h.paired.pair language source target

lemma OneToOne.unpair (h : e.OneToOne) (hpair : e.get? (.forward language source) = some target) :
    (e.unpair language source target).OneToOne where
  keyed := keyed_erase (keyed_erase h.keyed _) _
  paired := h.paired.unpair hpair

/-- A row is found under its key. -/
lemma OneToOne.mem_rows_iff (h : e.OneToOne) {k : Key} {v : String} :
    (k, v) ∈ e.rows ↔ e.get? k = some v :=
  (lookup_eq_some_iff_mem h.keyed).symm

end Entries

end Glossary
