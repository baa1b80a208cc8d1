import Glossary.Proofs.Settings.RoundTrip

/-!
# Settings are usable when their aliases are steady

Whether settings have defects is found row by row: each code is compared with its own alias and is
looked up among all others.  What the defects stand for is a property of the whole table, of the codes
that it gives to all texts whatsoever: a code is given once and for all, and an alias is never given
itself.  A table with this property is called steady here, and both come to the same if no text is
empty.

Emptiness has to be asked for by itself, since a table treats an alias of the empty text as not listed.
-/

namespace Glossary

namespace AliasTable

variable {t : AliasTable} {variant code : String}

/-- Following an alias once is enough, and every alias leads somewhere else. -/
structure Steady (t : AliasTable) : Prop where
  /-- The code of a text is the code of that code. -/
  settled : ∀ language, t.canonical (t.canonical language) = t.canonical language
  /-- No alias stands for itself. -/
  moved : ∀ r ∈ t.rows, t.canonical r.1 ≠ r.1

/-- No alias and no code is empty. -/
def Filled (t : AliasTable) : Prop := ∀ r ∈ t.rows, r.1 ≠ "" ∧ r.2 ≠ ""

/-- An alias stands for the code that is listed for it, unless that is empty. -/
lemma canonical_of_mem (h : (variant, code) ∈ t.rows) (hcode : code ≠ "") :
    t.canonical variant = code := by
  simp [canonical, get?_eq_some_iff.2 h, hcode]

lemma steady_of_defects_eq_nil (h : t.defects = []) : t.Steady where
  settled := canonical_canonical h
  moved := by
    rintro ⟨variant, code⟩ hr
    obtain ⟨hcode, hne⟩ := canonical_of_get?_eq_some h (get?_eq_some_iff.2 hr)
    rw [hcode]
    exact hne

lemma filled_of_defects_eq_nil (h : t.defects = []) : t.Filled := by
  rintro ⟨variant, code⟩ hr
  obtain ⟨hvariant, hcode, -⟩ := defects_eq_nil_iff.1 h variant code (get?_eq_some_iff.2 hr)
  exact ⟨hvariant, hcode⟩

/-- In a steady table no code is an alias: the code would have to stand for itself. -/
lemma Steady.get?_code (h : t.Steady) (hr : (variant, code) ∈ t.rows) (hcode : code ≠ "") :
    t.get? code = none := by
  have hself : t.canonical code = code := by
    have := h.settled variant
    rwa [canonical_of_mem hr hcode] at this
  cases hget : t.get? code with
  | none => rfl
  | some next => exact absurd hself (h.moved _ (get?_eq_some_iff.1 hget))

/-- A table has no defects exactly if no text in it is empty and it is steady. -/
lemma defects_eq_nil_iff_steady : t.defects = [] ↔ t.Filled ∧ t.Steady := by
  refine ⟨fun h => ⟨filled_of_defects_eq_nil h, steady_of_defects_eq_nil h⟩, ?_⟩
  rintro ⟨hfilled, hsteady⟩
  refine defects_eq_nil_iff.2 fun variant code hget => ?_
  have hr := get?_eq_some_iff.1 hget
  obtain ⟨hvariant, hcode⟩ := hfilled _ hr
  refine ⟨hvariant, hcode, ?_, hsteady.get?_code hr hcode⟩
  rintro rfl
  exact hsteady.moved _ hr (canonical_of_mem hr hcode)

end AliasTable

lemma Field.mem_all (f : Field) : f ∈ Field.all := by
  cases f <;> decide

lemma StandardEntry.defects_eq_nil_iff {e : StandardEntry} {index : Nat} :
    e.defects index = [] ↔ ∀ f, e.get f ≠ "" := by
  simp [StandardEntry.defects, Field.mem_all]

namespace Settings

variable {s : Settings}

lemma defects_eq_nil_iff :
    s.defects = [] ↔ s.aliases.defects = [] ∧ ∀ e ∈ s.standard, ∀ f, e.get f ≠ "" := by
  rw [defects, List.append_eq_nil_iff, List.flatMap_eq_nil_iff]
  refine and_congr_right fun _ => ?_
  simp only [StandardEntry.defects_eq_nil_iff]
  constructor
  · intro h e he
    obtain ⟨i, hi⟩ := List.mem_iff_getElem?.1 he
    exact h (e, i) (List.mem_zipIdx_iff_getElem?.2 hi)
  · rintro h ⟨e, i⟩ hi
    exact h e (List.mem_of_getElem? (List.mem_zipIdx_iff_getElem?.1 hi))

/-- **Settings pass the check exactly if their aliases are steady and no text is empty.**  The table
is the one that is made of the rows, one after another, and steady means what it gives to every text:
the code of a code is that code, and the code of an alias is never the alias. -/
theorem check_eq_ok_iff_steady (s : Settings) :
    let table := AliasTable.ofRows s.aliases.rows
    s.check = .ok s ↔
      (∀ r ∈ s.aliases.rows, r.1 ≠ "" ∧ r.2 ≠ "") ∧
      (∀ e ∈ s.standard, ∀ f, e.get f ≠ "") ∧
      (∀ language, table.canonical (table.canonical language) = table.canonical language) ∧
      ∀ r ∈ s.aliases.rows, table.canonical r.1 ≠ r.1 := by
  intro table
  have htable : table = s.aliases := AliasTable.ofRows_rows s.aliases
  rw [htable, check_eq_ok_iff, defects_eq_nil_iff, AliasTable.defects_eq_nil_iff_steady]
  constructor
  · rintro ⟨⟨⟨hfilled, hsteady⟩, hstandard⟩, -⟩
    exact ⟨hfilled, hstandard, hsteady.settled, hsteady.moved⟩
  · rintro ⟨hfilled, hstandard, hsettled, hmoved⟩
    exact ⟨⟨⟨hfilled, hsettled, hmoved⟩, hstandard⟩, rfl⟩

-- neither half of steadiness follows from the other: a ring of aliases moves each of them for ever,
-- and an alias of itself is settled at once
example : (Settings.mk (.ofRows [("at", "de"), ("de", "at")]) []).defects =
    [.chainedAlias "at" "de", .chainedAlias "de" "at"] := by
  decide

example : (Settings.mk (.ofRows [("de", "de")]) []).defects = [.selfAlias "de"] := by
  decide

end Settings

end Glossary
