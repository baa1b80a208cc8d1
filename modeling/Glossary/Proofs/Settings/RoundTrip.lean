import Glossary.Proofs.Json.Container
import Glossary.Proofs.Settings.Check
import Glossary.Settings.Reader

/-!
# Written settings are read back

The compact document of settings is read as the settings themselves, whatever characters their texts
hold.  Each part is read back whatever follows it: the alias table, because putting its rows into an
empty table one after another gives the rows in their order; a standard entry, because its four
fields come once each; and the settings, because their two members do.

Defects have no part in that: settings with defects are read back too, and then refused for their
defects.
-/

namespace Glossary

open Json

/-! ## Alias tables -/

namespace AliasTable

/-- A row whose alias is greater than all others is put at the end. -/
lemma place_of_forall_lt {variant code : String} {rows : List (String × String)}
    (h : ∀ r ∈ rows, r.1 < variant) : place variant code rows = rows ++ [(variant, code)] := by
  induction rows with
  | nil => rfl
  | cons row rest ih =>
    have hrow : row.1 < variant := h row List.mem_cons_self
    have hne : variant ≠ row.1 := fun heq => String.lt_irrefl _ (heq ▸ hrow)
    rw [place, if_neg (String.lt_asymm hrow), if_neg hne, List.cons_append]
    exact congrArg _ (ih fun r hr => h r (List.mem_cons_of_mem _ hr))

/-- Rows in order, put into a table one after another, stand in the table in that order. -/
lemma rows_foldl_insert (t : AliasTable) (rows : List (String × String))
    (h : (t.rows ++ rows).Pairwise fun r s => r.1 < s.1) :
    (rows.foldl (fun t r => t.insert r.1 r.2) t).rows = t.rows ++ rows := by
  induction rows generalizing t with
  | nil => simp
  | cons r rest ih =>
    have hlt : ∀ s ∈ t.rows, s.1 < r.1 := fun s hs =>
      (List.pairwise_append.1 h).2.2 s hs r List.mem_cons_self
    have hrows : (t.insert r.1 r.2).rows = t.rows ++ [r] := place_of_forall_lt hlt
    have hrest := ih (t.insert r.1 r.2) (by simpa [hrows] using h)
    rw [List.foldl_cons, hrest, hrows, List.append_assoc, List.singleton_append]

lemma eq_of_rows_eq {t u : AliasTable} (h : t.rows = u.rows) : t = u := by
  cases t
  cases u
  simpa using h

/-- A table is the table of its rows. -/
lemma ofRows_rows (t : AliasTable) : ofRows t.rows = t := by
  have hsorted : (empty.rows ++ t.rows).Pairwise fun r s => r.1 < s.1 := t.sorted
  exact eq_of_rows_eq (rows_foldl_insert empty t.rows hsorted)

lemma readMember_quote (t : AliasTable) (name code : String) (rest : List Char) :
    readMember t name (':' :: (quote code ++ rest)) = .ok (t.insert name code, rest) := by
  change (text (quote code ++ rest) >>= _) = _
  rw [text_quote]
  rfl

lemma takes_rows (t : AliasTable) (rows : List (String × String)) :
    Takes readMember t (rows.map fun r => writeMember r.1 (quote r.2))
      (rows.foldl (fun t r => t.insert r.1 r.2) t) := by
  induction rows generalizing t with
  | nil => exact .nil t
  | cons r rest ih => exact .cons (readMember_quote t r.1 r.2) (ih _)

/-- A written table is read back, whatever follows it. -/
lemma read_write (t : AliasTable) (rest : List Char) : read (t.write ++ rest) = .ok (t, rest) := by
  have hmembers := (takes_rows empty t.rows).members_eq rest
  have hrows : t.rows.foldl (fun t r => t.insert r.1 r.2) empty = t := ofRows_rows t
  rw [hrows] at hmembers
  rw [write, writeObject_append]
  change (members readMember empty _ >>= _) = _
  rw [hmembers]
  rfl

end AliasTable

/-! ## Standard entries -/

namespace StandardEntry

/-- A field that was not read yet. -/
lemma readMember_quote {fields : Fields} {f : Field} (h : fields.lookup f = none) (value : String)
    (rest : List Char) :
    readMember fields f.name (':' :: (quote value ++ rest)) = .ok ((f, value) :: fields, rest) := by
  have hname : Field.ofName? f.name = some f := by cases f <;> decide
  simp only [readMember, hname, h]
  change (text (quote value ++ rest) >>= _) = _
  rw [text_quote]
  rfl

lemma takes_fields (e : StandardEntry) :
    Takes readMember [] (Field.all.map fun f => writeMember f.name (quote (e.get f)))
      [(.canonical, e.canonical), (.localized, e.localized), (.language, e.language),
        (.target, e.target)] := by
  refine .cons (readMember_quote (f := .target) rfl e.target) ?_
  refine .cons (readMember_quote (f := .language) rfl e.language) ?_
  refine .cons (readMember_quote (f := .localized) rfl e.localized) ?_
  exact .cons (readMember_quote (f := .canonical) rfl e.canonical) (.nil _)

/-- A written entry is read back, whatever follows it. -/
lemma read_write (e : StandardEntry) (rest : List Char) : read (e.write ++ rest) = .ok (e, rest) := by
  have hmembers := (takes_fields e).members_eq rest
  rw [write, writeObject_append]
  change (members readMember [] _ >>= _) = _
  rw [hmembers]
  rfl

lemma beginsValue_write (e : StandardEntry) : BeginsValue e.write :=
  ⟨'{', _, rfl, by decide, by decide⟩

lemma gathers_entries (before entries : List StandardEntry) :
    Gathers readElement before (entries.map write) (before ++ entries) := by
  induction entries generalizing before with
  | nil =>
    rw [List.append_nil]
    exact .nil before
  | cons e rest ih =>
    have hread : ∀ s, readElement before (e.write ++ s) = .ok (before ++ [e], s) := by
      intro s
      simp only [readElement, read_write, bind, Except.bind]
      rfl
    have hrest := ih (before ++ [e])
    rw [List.append_assoc, List.singleton_append] at hrest
    exact .cons e.beginsValue_write hread hrest

/-- A written list of entries is read back, whatever follows it. -/
lemma readAll_write (entries : List StandardEntry) (rest : List Char) :
    readAll (writeList (entries.map write) ++ rest) = .ok (entries, rest) := by
  have helements := (gathers_entries [] entries).elements_eq rest
  rw [writeList_append]
  change (elements readElement [] _ >>= _) = _
  rw [helements]
  rfl

end StandardEntry

/-! ## Settings -/

namespace Settings

lemma readMember_aliases (t : AliasTable) (rest : List Char) :
    readMember .none aliasesName (':' :: (t.write ++ rest)) = .ok (⟨some t, none⟩, rest) := by
  simp only [readMember, if_true]
  change (AliasTable.read (t.write ++ rest) >>= _) = _
  rw [AliasTable.read_write]
  rfl

lemma readMember_standard (t : AliasTable) (entries : List StandardEntry) (rest : List Char) :
    readMember ⟨some t, none⟩ standardName
      (':' :: (writeList (entries.map StandardEntry.write) ++ rest)) =
        .ok (⟨some t, some entries⟩, rest) := by
  have hname : standardName ≠ aliasesName := by decide
  simp only [readMember, if_neg hname, if_true]
  change (StandardEntry.readAll (writeList (entries.map StandardEntry.write) ++ rest) >>= _) = _
  rw [StandardEntry.readAll_write]
  rfl

/-- Written settings are read back, whatever follows them. -/
lemma read_write (s : Settings) (rest : List Char) : read (s.write ++ rest) = .ok (s, rest) := by
  have hmembers := (Takes.cons (readMember_aliases s.aliases)
    (.cons (readMember_standard s.aliases s.standard) (.nil _))).members_eq rest
  rw [write, writeObject_append]
  change (members readMember .none _ >>= _) = _
  rw [hmembers]
  rfl

/-- The compact document of settings is read as the settings. -/
lemma readDocument_render (s : Settings) : readDocument s.render = .ok s := by
  have hread := read_write s []
  rw [List.append_nil] at hread
  rw [readDocument, render, String.toList_ofList, hread]
  rfl

/-- **Writing settings and reading them back.**  The compact document of settings gives the settings
themselves if they have no defect, and is refused for their defects otherwise.  It is never refused
because it cannot be read. -/
theorem ofDocument_render (s : Settings) :
    ofDocument s.render =
      (match s.check with
        | .ok _ => .ok s
        | .error defects => .error (.defective defects)) ∧
      ∀ fault, ofDocument s.render ≠ .error (.unreadable fault) := by
  rw [ofDocument, readDocument_render]
  cases h : s.check with
  | error defects => simp [h]
  | ok t =>
    obtain ⟨-, rfl⟩ := check_eq_ok_iff.1 h
    simp [h]

end Settings

end Glossary
