/-!
# Rows with keys

Small tables are kept as lists of rows, each a key and a value, in which the first row with a
key counts.
-/

namespace Glossary

variable {α β : Type} [DecidableEq α]

/-- Looking up a key tries the first row and then the others. -/
theorem lookup_cons_eq_ite (k a : α) (v : β) (rows : List (α × β)) :
    ((k, v) :: rows).lookup a = if a = k then some v else rows.lookup a := by
  rw [List.lookup_cons]
  by_cases h : a = k
  · simp [h]
  · simp [h, beq_eq_false_iff_ne.2 h]

/-- Taking a key out of the rows affects no other key. -/
theorem lookup_filter_ne (k a : α) (rows : List (α × β)) :
    (rows.filter (·.1 ≠ k)).lookup a = if a = k then none else rows.lookup a := by
  induction rows with
  | nil => simp
  | cons r rest ih =>
    obtain ⟨m, v⟩ := r
    by_cases hm : m = k
    · subst hm
      rw [List.filter_cons_of_neg (by simp), ih, lookup_cons_eq_ite]
      by_cases ha : a = m <;> simp [ha]
    · rw [List.filter_cons_of_pos (by simpa using hm), lookup_cons_eq_ite, lookup_cons_eq_ite, ih]
      by_cases ha : a = m
      · subst ha
        simp [hm]
      · simp [ha]

/-- Where no key occurs twice, a row is found under its key. -/
theorem lookup_eq_some_iff_mem {rows : List (α × β)} (h : (rows.map (·.1)).Nodup) {k : α} {v : β} :
    rows.lookup k = some v ↔ (k, v) ∈ rows := by
  induction rows with
  | nil => simp
  | cons r rest ih =>
    obtain ⟨m, w⟩ := r
    obtain ⟨hm, hrest⟩ := List.nodup_cons.1 h
    rw [lookup_cons_eq_ite, List.mem_cons, ← ih hrest]
    by_cases hk : k = m
    · subst hk
      have hno : ¬ rest.lookup k = some v := fun hl =>
        hm (List.mem_map.2 ⟨(k, v), (ih hrest).1 hl, rfl⟩)
      simp [hno, eq_comm]
    · simp [hk]

end Glossary
