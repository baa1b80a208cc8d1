import Glossary.Rows

/-!
# Alias tables

A language may be known under several codes.  An alias table (`LanguageRemap`) sends an alias to
the code that entries are kept under; a code that it does not list stands for itself.  That is
`canonical` (`canonicalize`).  The rows are kept in
strictly increasing order of the alias, so a table has one form and two tables with the same
content are equal.  Strings are ordered by their characters, which is also the order of their
bytes in UTF-8.
-/

namespace Glossary

/-- A table from aliases to language codes, its rows in strictly increasing order of alias. -/
structure AliasTable where
  /-- The rows: an alias and the code it stands for. -/
  rows : List (String × String)
  /-- Each alias is smaller than those after it. -/
  sorted : rows.Pairwise (fun r s => r.1 < s.1)
deriving DecidableEq

namespace AliasTable

/-- The table without rows. -/
def empty : AliasTable := ⟨[], .nil⟩

/-- Puts a row at its place in ordered rows, where it replaces a row with the same alias. -/
def place (variant code : String) : List (String × String) → List (String × String)
  | [] => [(variant, code)]
  | row :: rest =>
    if variant < row.1 then (variant, code) :: row :: rest
    else if variant = row.1 then (variant, code) :: rest
    else row :: place variant code rest

theorem mem_place {variant code : String} {rows : List (String × String)} {r : String × String}
    (h : r ∈ place variant code rows) : r = (variant, code) ∨ r ∈ rows := by
  induction rows with
  | nil => simpa [place] using h
  | cons row rest ih =>
    simp only [place] at h
    split at h
    · simpa using h
    · split at h
      · rcases List.mem_cons.1 h with h | h <;> simp [h]
      · rcases List.mem_cons.1 h with h | h
        · simp [h]
        · rcases ih h with h | h <;> simp [h]

theorem pairwise_place (variant code : String) {rows : List (String × String)}
    (h : rows.Pairwise (fun r s => r.1 < s.1)) :
    (place variant code rows).Pairwise (fun r s => r.1 < s.1) := by
  induction rows with
  | nil => simp [place]
  | cons row rest ih =>
    have hrow := List.pairwise_cons.1 h
    simp only [place]
    split
    · next hlt =>
      refine List.pairwise_cons.2 ⟨fun r hr => ?_, h⟩
      rcases List.mem_cons.1 hr with rfl | hr
      · exact hlt
      · exact String.lt_trans hlt (hrow.1 r hr)
    · next hlt =>
      split
      · next heq =>
        subst heq
        exact List.pairwise_cons.2 ⟨hrow.1, hrow.2⟩
      · next hne =>
        refine List.pairwise_cons.2 ⟨fun r hr => ?_, ih hrow.2⟩
        rcases mem_place hr with rfl | hr
        · rcases String.le_total variant row.1 with hle | hle
          · exact absurd (String.le_antisymm hle (String.not_lt.1 hlt)) hne
          · exact Decidable.byContradiction fun hn =>
              hne (String.le_antisymm (String.not_lt.1 hn) hle)
        · exact hrow.1 r hr

/-- Adds a row; a row with the same alias is replaced. -/
def insert (t : AliasTable) (variant code : String) : AliasTable :=
  ⟨place variant code t.rows, pairwise_place variant code t.sorted⟩

/-- The table of a list of rows, in which a later row wins over an earlier one with the same
alias. -/
def ofRows (rows : List (String × String)) : AliasTable :=
  rows.foldl (fun t r => t.insert r.1 r.2) empty

/-- The number of aliases. -/
def size (t : AliasTable) : Nat := t.rows.length

/-- What the table lists for a code. -/
def get? (t : AliasTable) (language : String) : Option String := t.rows.lookup language

theorem lookup_place (variant code language : String) (rows : List (String × String)) :
    (place variant code rows).lookup language =
      if language = variant then some code else rows.lookup language := by
  induction rows with
  | nil => simp only [place, lookup_cons_eq_ite]
  | cons row rest ih =>
    obtain ⟨a, b⟩ := row
    simp only [place]
    split
    · rw [lookup_cons_eq_ite]
    · split
      · next heq =>
        subst heq
        rw [lookup_cons_eq_ite, lookup_cons_eq_ite]
        by_cases h : language = variant <;> simp [h]
      · next hne =>
        rw [lookup_cons_eq_ite, ih, lookup_cons_eq_ite]
        by_cases h : language = variant
        · subst h
          simp [hne]
        · simp [h]

@[simp] theorem get?_empty (language : String) : empty.get? language = none := rfl

/-- A row is found under its alias, and no other alias is touched. -/
@[simp] theorem get?_insert (t : AliasTable) (variant code language : String) :
    (t.insert variant code).get? language =
      if language = variant then some code else t.get? language :=
  lookup_place variant code language t.rows

/-- Whether the table lists a code as an alias. -/
def contains (t : AliasTable) (language : String) : Bool := (t.get? language).isSome

/-- The code that entries of a language are kept under.  An alias that is sent to the empty
text counts as not listed. -/
def canonical (t : AliasTable) (language : String) : String :=
  match t.get? language with
  | some code => if code.isEmpty then language else code
  | none => language

/-- A code that is not listed stands for itself. -/
theorem canonical_of_get?_eq_none {t : AliasTable} {language : String}
    (h : t.get? language = none) : t.canonical language = language := by
  simp [canonical, h]

end AliasTable

end Glossary
