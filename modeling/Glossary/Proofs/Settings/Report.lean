import Glossary.Proofs.Settings.Steady
import Mathlib.Data.List.Nodup

/-!
# The report on settings

A check of settings that fails reports a list of defects.  Each of them is at some place of a document,
which its path names: the table of aliases as a whole, the row of an alias, or a field of a standard
entry.  Whether something is wrong at a place can be told from the settings without going through
them, and the report has just one defect for each place where something is.

The order of the report is an order of places.  Rows are ordered by the bytes of their aliases.  That is
the order of the characters too, since a character that is smaller has smaller bytes at the first
position where two characters differ.

Paths tell all places apart, whatever an alias holds: no index is written with a bracket.
-/

namespace Glossary

/-! ## The order of bytes -/

/-- The bytes of a text in UTF-8. -/
def bytes (s : String) : List UInt8 := s.toUTF8.data.toList

lemma bytes_eq (s : String) : bytes s = s.toList.flatMap String.utf8EncodeChar := by
  rw [bytes, String.toUTF8_eq_toByteArray, ← String.utf8Encode_toList, List.utf8Encode,
    List.toList_data_toByteArray]

lemma val_lt_of_char (c : Char) : c.val.toNat < 0x110000 := by
  have hvalid := c.valid
  simp only [UInt32.isValidChar, Nat.isValidChar] at hvalid
  omega

/-- The bytes of the smaller character are smaller, whatever follows. -/
lemma utf8EncodeChar_append_lt {c d : Char} (h : c < d) (rest rest' : List UInt8) :
    String.utf8EncodeChar c ++ rest < String.utf8EncodeChar d ++ rest' := by
  have hlt : c.val.toNat < d.val.toNat := h
  have hd := val_lt_of_char d
  simp only [String.utf8EncodeChar]
  -- one case for each pair of lengths: the first byte tells different lengths apart, and characters
  -- of the same length are compared by their digits to the base of 64
  repeat' split
  all_goals
    simp (disch := omega) only [List.cons_append, List.nil_append, List.cons_lt_cons_iff,
      UInt8.lt_iff_toNat_lt, UInt8.toNat_ofNat', ← UInt8.toNat_inj, Nat.mod_eq_of_lt]
    omega

lemma flatMap_utf8EncodeChar_lt {s t : List Char} (h : s < t) :
    s.flatMap String.utf8EncodeChar < t.flatMap String.utf8EncodeChar := by
  induction h with
  | @nil c t =>
    obtain ⟨b, bs, hb⟩ := List.exists_cons_of_ne_nil (String.utf8EncodeChar_ne_nil (c := c))
    rw [List.flatMap_cons, hb, List.cons_append]
    exact List.nil_lt_cons b _
  | rel h => exact utf8EncodeChar_append_lt h _ _
  | cons _ ih => exact List.append_left_lt ih

/-- Texts are ordered by their bytes. -/
lemma bytes_lt_bytes {s t : String} (h : s < t) : bytes s < bytes t := by
  rw [bytes_eq, bytes_eq]
  exact flatMap_utf8EncodeChar_lt h

/-! ## Places -/

/-- A place of a document where something can be wrong. -/
inductive Place where
  /-- The table of aliases. -/
  | aliases
  /-- The row of an alias. -/
  | row (variant : String)
  /-- A field of the standard entry at an index. -/
  | field (index : Nat) (field : Field)
deriving DecidableEq

namespace Place

/-- How a place is named. -/
def path : Place → String
  | aliases => "languageRemap"
  | row variant => "languageRemap." ++ variant
  | field index f => "standardTranslations[" ++ toString index ++ "]." ++ f.name

@[simp] lemma path_aliases : aliases.path = "languageRemap" := rfl

@[simp] lemma path_row (variant : String) : (row variant).path = "languageRemap." ++ variant := rfl

@[simp] lemma path_field (index : Nat) (f : Field) :
    (field index f).path = "standardTranslations[" ++ toString index ++ "]." ++ f.name := rfl

/-- The order of places: rows by the bytes of their aliases, then entries by their indices, and the
fields of an entry in their own order.  What is wrong with the table as a whole is that it has a row
for the empty alias.  No row is before that one, so the table is before all rows. -/
def Before : Place → Place → Prop
  | aliases, aliases => False
  | aliases, _ => True
  | row _, aliases => False
  | row a, row b => bytes a < bytes b
  | row _, field _ _ => True
  | field i f, field j g => i < j ∨ i = j ∧ Field.all.idxOf f < Field.all.idxOf g
  | field _ _, _ => False

lemma Before.ne {p q : Place} (h : p.Before q) : p ≠ q := by
  rintro rfl
  cases p with
  | aliases => exact h
  | row variant => exact List.lt_irrefl _ h
  | field i f =>
    rcases h with h | ⟨-, h⟩
    · exact Nat.lt_irrefl _ h
    · exact Nat.lt_irrefl _ h

lemma ne_bracket_of_mem_toDigits {n : Nat} : ∀ c ∈ Nat.toDigits 10 n, c ≠ ']' := by
  rintro c hc rfl
  exact absurd (Nat.isDigit_of_mem_toDigits (by decide) (by decide) hc) (by decide)

/-- An index ends at the first bracket that closes, so it can be told from what follows. -/
lemma toDigits_append_inj {m n : Nat} {s t : List Char}
    (h : Nat.toDigits 10 m ++ ']' :: s = Nat.toDigits 10 n ++ ']' :: t) : m = n ∧ s = t := by
  have hspan : ∀ (k : Nat) (u : List Char),
      (Nat.toDigits 10 k ++ ']' :: u).takeWhile (· ≠ ']') = Nat.toDigits 10 k := by
    intro k u
    rw [List.takeWhile_append_of_pos (by simpa using ne_bracket_of_mem_toDigits),
      List.takeWhile_cons_of_neg (by simp), List.append_nil]
  have hdigits : Nat.toDigits 10 m = Nat.toDigits 10 n := by
    rw [← hspan m s, ← hspan n t, h]
  constructor
  · rw [← Nat.ofDigitChars_toDigits (b := 10) (n := m) (by decide) (by decide), hdigits,
      Nat.ofDigitChars_toDigits (by decide) (by decide)]
  · rw [hdigits] at h
    simpa using h

lemma field_path_injective {i j : Nat} {f g : Field} (h : (field i f).path = (field j g).path) :
    i = j ∧ f = g := by
  have hclose : "].".toList = [']', '.'] := by decide
  have hlist := congrArg String.toList h
  simp only [path_field, String.append_assoc, String.toList_append, Nat.toString_eq_repr, Nat.toList_repr,
    List.append_cancel_left_eq, hclose, List.cons_append, List.nil_append] at hlist
  obtain ⟨hindex, hname⟩ := toDigits_append_inj hlist
  exact ⟨hindex, Field.name_injective (String.toList_inj.1 (List.cons.inj hname).2)⟩

/-- Places have different paths, whatever aliases there are. -/
lemma path_injective {p q : Place} (h : p.path = q.path) : p = q := by
  have hlist := congrArg String.toList h
  cases p with
  | aliases =>
    cases q with
    | aliases => rfl
    | row variant => simp at hlist
    | field j g => simp at hlist
  | row variant =>
    cases q with
    | aliases => simp at hlist
    | row variant' => rw [(String.append_right_inj _).1 h]
    | field j g => simp at hlist
  | field i f =>
    cases q with
    | aliases => simp at hlist
    | row variant => simp at hlist
    | field j g =>
      obtain ⟨rfl, rfl⟩ := field_path_injective h
      rfl

end Place

/-! ## Where something is wrong -/

/-- Where a defect is. -/
def Defect.place : Defect → Place
  | emptyAlias => .aliases
  | emptyCode variant | selfAlias variant | chainedAlias variant _ => .row variant
  | emptyField index f => .field index f

lemma Defect.path_eq (d : Defect) : d.path = d.place.path := by
  cases d <;> rfl

namespace Settings

/-- Something is wrong at a place: the table has an empty alias, the code of an alias is empty or an
alias, perhaps the same one, or a field is empty. -/
def WrongAt (s : Settings) : Place → Prop
  | .aliases => s.aliases.contains ""
  | .row variant => ∃ code ∈ s.aliases.get? variant, code = "" ∨ s.aliases.contains code
  | .field index f => ∃ e ∈ s.standard[index]?, e.get f = ""

instance (s : Settings) (p : Place) : Decidable (s.WrongAt p) :=
  match p with
  | .aliases => inferInstanceAs (Decidable (s.aliases.contains "" = true))
  | .row variant =>
    inferInstanceAs (Decidable (∃ code ∈ s.aliases.get? variant, code = "" ∨ s.aliases.contains code))
  | .field index f => inferInstanceAs (Decidable (∃ e ∈ s.standard[index]?, e.get f = ""))

/-- The defects that a check reports. -/
def reported (s : Settings) : List Defect :=
  match s.check with
  | .ok _ => []
  | .error defects => defects

lemma reported_eq (s : Settings) : s.reported = s.defects := by
  rw [reported]
  cases h : s.check with
  | ok t => exact (check_eq_ok_iff.1 h).1.symm
  | error defects => exact (check_eq_error_iff.1 h).2

end Settings

/-! ## The defects of a table -/

namespace AliasTable

variable {t : AliasTable} {variant code : String} {p : Place}

/-- A row has a defect of the table if its alias is empty, and one of its own if its code is empty or
an alias.  An alias that is sent to itself is sent to an alias. -/
lemma mem_place_rowDefects (hr : (variant, code) ∈ t.rows) :
    p ∈ (t.rowDefects variant code).map Defect.place ↔
      p = .aliases ∧ variant = "" ∨ p = .row variant ∧ (code = "" ∨ t.contains code) := by
  have hlisted : code = variant → t.contains code = true := by
    rintro rfl
    rw [contains, get?_eq_some_iff.2 hr, Option.isSome_some]
  rw [rowDefects, List.map_append, List.mem_append]
  refine or_congr ?_ ?_
  · by_cases hv : variant = "" <;> simp [hv, Defect.place]
  · by_cases hc : code = ""
    · simp [hc, Defect.place]
    · by_cases hself : code = variant
      · subst hself
        simp [hc, hlisted rfl, Defect.place]
      · by_cases hchained : t.contains code <;> simp [hc, hself, hchained, Defect.place]

lemma pairwise_rowDefects (t : AliasTable) (variant code : String) :
    ((t.rowDefects variant code).map Defect.place).Pairwise Place.Before := by
  rw [rowDefects]
  split_ifs <;> simp [Defect.place, Place.Before]

/-- The defects of a table stand in the order of its rows. -/
lemma pairwise_defects (t : AliasTable) : (t.defects.map Defect.place).Pairwise Place.Before := by
  rw [defects, List.map_flatMap, List.pairwise_flatMap]
  refine ⟨fun r _ => t.pairwise_rowDefects r.1 r.2, t.sorted.imp_of_mem ?_⟩
  intro r s hr hs hlt x hx y hy
  -- only the first row can have the empty alias
  have hs_ne : s.1 ≠ "" := by
    intro hempty
    rw [hempty] at hlt
    exact List.not_lt_nil _ hlt
  have hy : y = .row s.1 := by
    rcases (mem_place_rowDefects hs).1 hy with ⟨-, hempty⟩ | ⟨rfl, -⟩
    · exact absurd hempty hs_ne
    · rfl
  rcases (mem_place_rowDefects hr).1 hx with ⟨rfl, -⟩ | ⟨rfl, -⟩
  · rw [hy]
    exact trivial
  · rw [hy]
    exact bytes_lt_bytes hlt

lemma mem_place_defects :
    p ∈ t.defects.map Defect.place ↔
      p = .aliases ∧ t.contains "" ∨
        ∃ variant, p = .row variant ∧ ∃ code ∈ t.get? variant, code = "" ∨ t.contains code := by
  rw [defects, List.map_flatMap, List.mem_flatMap]
  constructor
  · rintro ⟨⟨variant, code⟩, hr, hp⟩
    have hget := get?_eq_some_iff.2 hr
    rcases (mem_place_rowDefects hr).1 hp with ⟨rfl, rfl⟩ | ⟨rfl, hcode⟩
    · exact Or.inl ⟨rfl, by rw [contains, hget, Option.isSome_some]⟩
    · exact Or.inr ⟨variant, rfl, code, hget, hcode⟩
  · rintro (⟨rfl, hempty⟩ | ⟨variant, rfl, code, hget, hcode⟩)
    · obtain ⟨code, hget⟩ := Option.isSome_iff_exists.1 hempty
      have hr := get?_eq_some_iff.1 hget
      exact ⟨("", code), hr, (mem_place_rowDefects hr).2 (Or.inl ⟨rfl, rfl⟩)⟩
    · have hr := get?_eq_some_iff.1 hget
      exact ⟨(variant, code), hr, (mem_place_rowDefects hr).2 (Or.inr ⟨rfl, hcode⟩)⟩

end AliasTable

/-! ## The defects of standard entries -/

lemma Field.pairwise_all : Field.all.Pairwise fun f g => Field.all.idxOf f < Field.all.idxOf g := by
  decide

namespace StandardEntry

lemma mem_place_defects {e : StandardEntry} {index : Nat} {p : Place} :
    p ∈ (e.defects index).map Defect.place ↔ ∃ f, p = .field index f ∧ e.get f = "" := by
  rw [defects, List.map_map, List.mem_map]
  constructor
  · rintro ⟨f, hf, rfl⟩
    exact ⟨f, rfl, by simpa using (List.mem_filter.1 hf).2⟩
  · rintro ⟨f, rfl, hempty⟩
    exact ⟨f, List.mem_filter.2 ⟨f.mem_all, by simpa using hempty⟩, rfl⟩

/-- The defects of an entry stand in the order of its fields. -/
lemma pairwise_defects (e : StandardEntry) (index : Nat) :
    ((e.defects index).map Defect.place).Pairwise Place.Before := by
  rw [defects, List.map_map, List.pairwise_map]
  exact (Field.pairwise_all.filter _).imp fun h => Or.inr ⟨rfl, h⟩

end StandardEntry

namespace Settings

variable {s : Settings} {p : Place}

lemma pairwise_snd_zipIdx {α : Type} (l : List α) : l.zipIdx.Pairwise fun x y => x.2 < y.2 := by
  rw [← List.pairwise_map (f := Prod.snd), List.zipIdx_map_snd]
  exact List.pairwise_lt_range'

lemma mem_place_entries :
    p ∈ (s.standard.zipIdx.flatMap fun (e, i) => e.defects i).map Defect.place ↔
      ∃ index f, p = .field index f ∧ ∃ e ∈ s.standard[index]?, e.get f = "" := by
  rw [List.map_flatMap, List.mem_flatMap]
  constructor
  · rintro ⟨⟨e, index⟩, he, hp⟩
    obtain ⟨f, rfl, hempty⟩ := StandardEntry.mem_place_defects.1 hp
    exact ⟨index, f, rfl, e, List.mem_zipIdx_iff_getElem?.1 he, hempty⟩
  · rintro ⟨index, f, rfl, e, he, hempty⟩
    exact ⟨(e, index), List.mem_zipIdx_iff_getElem?.2 he,
      StandardEntry.mem_place_defects.2 ⟨f, rfl, hempty⟩⟩

/-- The defects of the entries stand in the order of their indices. -/
lemma pairwise_entries (s : Settings) :
    ((s.standard.zipIdx.flatMap fun (e, i) => e.defects i).map Defect.place).Pairwise
      Place.Before := by
  rw [List.map_flatMap, List.pairwise_flatMap]
  refine ⟨fun x _ => x.1.pairwise_defects x.2, (pairwise_snd_zipIdx _).imp ?_⟩
  rintro ⟨e, i⟩ ⟨e', j⟩ hlt x hx y hy
  obtain ⟨f, rfl, -⟩ := StandardEntry.mem_place_defects.1 hx
  obtain ⟨g, rfl, -⟩ := StandardEntry.mem_place_defects.1 hy
  exact Or.inl hlt

/-! ## The whole report -/

lemma mem_place_defects : p ∈ s.defects.map Defect.place ↔ s.WrongAt p := by
  rw [defects, List.map_append, List.mem_append, AliasTable.mem_place_defects, mem_place_entries]
  cases p <;> simp [WrongAt]

lemma pairwise_defects (s : Settings) : (s.defects.map Defect.place).Pairwise Place.Before := by
  rw [defects, List.map_append, List.pairwise_append]
  refine ⟨s.aliases.pairwise_defects, s.pairwise_entries, ?_⟩
  intro x hx y hy
  obtain ⟨index, f, rfl, -⟩ := mem_place_entries.1 hy
  rcases AliasTable.mem_place_defects.1 hx with ⟨rfl, -⟩ | ⟨variant, rfl, -⟩ <;> exact trivial

/-- **The report on settings.**  It has one defect for each place where something is wrong and no other
defects, and the defects stand in the order of their places.  Their paths name the places and are all
different. -/
theorem reported_exact (s : Settings) :
    (∀ p, (s.reported.map Defect.place).count p = if s.WrongAt p then 1 else 0) ∧
      (s.reported.map Defect.place).Pairwise Place.Before ∧
      (∀ d ∈ s.reported, d.path = d.place.path) ∧
      (s.reported.map Defect.path).Nodup := by
  rw [reported_eq]
  have hnodup : (s.defects.map Defect.place).Nodup := s.pairwise_defects.imp Place.Before.ne
  refine ⟨fun p => ?_, s.pairwise_defects, fun d _ => d.path_eq, ?_⟩
  · rw [hnodup.count]
    exact if_congr mem_place_defects rfl rfl
  · have hpaths : s.defects.map Defect.path = (s.defects.map Defect.place).map Place.path := by
      rw [List.map_map]
      exact List.map_congr_left fun d _ => d.path_eq
    rw [hpaths]
    exact hnodup.map fun p q => Place.path_injective

-- an empty alias of the empty text has two defects, and the path of the second ends in its dot
example : (Settings.mk (.ofRows [("é", "z"), ("z", ""), ("", "")]) [⟨"", "fr", "", "b"⟩]).reported.map
    Defect.path = ["languageRemap", "languageRemap.", "languageRemap.z", "languageRemap.é",
      "standardTranslations[0].target", "standardTranslations[0].localized"] := by
  decide +kernel

end Settings

end Glossary
