import Glossary.Settings.Defect
import Mathlib.Tactic.Lemma

/-!
# Settings without defects

A table without defects sends every alias to a code that it does not list, so that following an
alias once is enough: the code of a language is its own code.  An alias never stands for itself.
-/

namespace Glossary

namespace AliasTable

variable {t : AliasTable} {variant code language : String}

/-- What a table lists for an alias is the code in its row. -/
lemma get?_eq_some_iff : t.get? variant = some code ↔ (variant, code) ∈ t.rows := by
  refine lookup_eq_some_iff_mem (List.pairwise_map.2 (t.sorted.imp ?_))
  intro r s hlt heq
  exact String.lt_irrefl _ (heq ▸ hlt)

lemma rowDefects_eq_nil_iff :
    t.rowDefects variant code = [] ↔
      variant ≠ "" ∧ code ≠ "" ∧ code ≠ variant ∧ t.get? code = none := by
  have hcontains : t.contains code = false ↔ t.get? code = none := by
    rw [contains, Option.isSome_eq_false_iff, Option.isNone_iff_eq_none]
  rw [← hcontains, rowDefects, List.append_eq_nil_iff]
  simp only [String.isEmpty_iff]
  by_cases hv : variant = "" <;> by_cases hc : code = "" <;> by_cases hs : code = variant <;>
    cases t.contains code <;> simp [hv, hc, hs]

/-- A table has no defects if no text in it is empty and no alias is sent to an alias. -/
lemma defects_eq_nil_iff :
    t.defects = [] ↔ ∀ variant code, t.get? variant = some code →
      variant ≠ "" ∧ code ≠ "" ∧ code ≠ variant ∧ t.get? code = none := by
  simp only [defects, List.flatMap_eq_nil_iff, rowDefects_eq_nil_iff, get?_eq_some_iff]
  exact ⟨fun h variant code hrow => h (variant, code) hrow, fun h r hr => h r.1 r.2 hr⟩

/-- In a table without defects an alias stands for the code that is listed for it, and that is
another one. -/
lemma canonical_of_get?_eq_some (h : t.defects = []) (hl : t.get? language = some code) :
    t.canonical language = code ∧ code ≠ language := by
  obtain ⟨-, hcode, hne, -⟩ := defects_eq_nil_iff.1 h language code hl
  simp [canonical, hl, hcode, hne]

/-- In a table without defects following an alias once is enough. -/
lemma canonical_canonical (h : t.defects = []) (language : String) :
    t.canonical (t.canonical language) = t.canonical language := by
  cases hl : t.get? language with
  | none => rw [canonical_of_get?_eq_none hl, canonical_of_get?_eq_none hl]
  | some code =>
    obtain ⟨-, -, -, hcode⟩ := defects_eq_nil_iff.1 h language code hl
    rw [(canonical_of_get?_eq_some h hl).1, canonical_of_get?_eq_none hcode]

/-- In a table without defects no alias stands for itself. -/
lemma contains_eq_false_of_canonical_eq (h : t.defects = []) (hl : t.canonical language = language) :
    t.contains language = false := by
  cases hget : t.get? language with
  | none => rw [contains, hget, Option.isSome_none]
  | some code =>
    obtain ⟨hcode, hne⟩ := canonical_of_get?_eq_some h hget
    exact absurd (hcode.symm.trans hl) hne

end AliasTable

namespace Settings

variable {s t : Settings} {ds : List Defect}

lemma check_eq_ok_iff : s.check = .ok t ↔ s.defects = [] ∧ t = s := by
  rw [check]
  cases hs : s.defects with
  | nil => simp [eq_comm]
  | cons d rest => simp

lemma check_eq_error_iff : s.check = .error ds ↔ s.defects ≠ [] ∧ ds = s.defects := by
  rw [check]
  cases hs : s.defects with
  | nil => simp
  | cons d rest => simp [eq_comm]

lemma aliases_defects_eq_nil (h : s.defects = []) : s.aliases.defects = [] :=
  (List.append_eq_nil_iff.1 h).1

end Settings

end Glossary
