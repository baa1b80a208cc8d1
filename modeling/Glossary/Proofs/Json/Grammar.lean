import Glossary.Json.Reader.Skip
import Glossary.Proofs.Json.Container

/-!
# The grammar of documents

What a JSON document looks like, without reference to a reader.  A text may be written in many ways:
between any two tokens there may be blanks, and inside quotes a character may stand for itself or be
escaped, by a letter of its own or by the hexadecimal digits of its UTF-16 units.

Two relations are about quotes.  `Quoted t v` says that `v` is a way to write the text `t`.  `IsText v`
only says that `v` is formed like a written text.  That is less, since an escape may be half of a
surrogate pair, and then no text is written by it.

`Items` lays out the content of a list or an object, with the blanks and commas between the parts.
`ListOf` and `ObjectOf` put brackets around it and so take a written container apart, into its elements
or its members, one level deep.  `Value` goes on to all levels.
-/

namespace Glossary.Json

variable {α ν : Type} {v w rest : List Char}

/-! ## Blanks and texts -/

/-- Blanks, of which any number may stand between two tokens. -/
def Blanks (w : List Char) : Prop := ∀ c ∈ w, isBlank c = true

instance (w : List Char) : Decidable (Blanks w) := List.decidableBAll (isBlank · = true) w

/-- The letters that may follow a backslash, and the characters that they stand for. -/
def letters : List (Char × Char) :=
  [('"', '"'), ('\\', '\\'), ('/', '/'), ('b', '\x08'), ('f', '\x0c'), ('n', '\n'), ('r', '\r'),
    ('t', '\t')]

/-- A hexadecimal digit, small or capital. -/
def IsHex (n : Nat) (c : Char) : Prop := n < 16 ∧ (c = hexDigit n ∨ c = (hexDigit n).toUpper)

instance (n : Nat) (c : Char) : Decidable (IsHex n c) := inferInstanceAs (Decidable (_ ∧ _))

/-- The four hexadecimal digits of a number. -/
inductive HexWord (n : Nat) : List Char → Prop
  /-- The digits from the highest to the lowest. -/
  | digits {a b c d : Char} (ha : IsHex (n / 0x1000) a) (hb : IsHex (n / 0x100 % 16) b)
    (hc : IsHex (n / 16 % 16) c) (hd : IsHex (n % 16) d) : HexWord n [a, b, c, d]

/-- A way to write a character inside quotes. -/
inductive Spelling (c : Char) : List Char → Prop
  /-- The character stands for itself. -/
  | plain (hquote : c ≠ '"') (hslash : c ≠ '\\') (hc : 32 ≤ c.toNat) : Spelling c [c]
  /-- The character has a letter of its own. -/
  | letter {l : Char} (h : (l, c) ∈ letters) : Spelling c ['\\', l]
  /-- The character is given by its number. -/
  | number {u : List Char} (hu : HexWord c.toNat u) : Spelling c ('\\' :: 'u' :: u)
  /-- The character is given by the two halves of its surrogate pair. -/
  | pair {u u' : List Char} (hc : 0x10000 ≤ c.toNat)
    (hu : HexWord (0xD800 + (c.toNat - 0x10000) / 0x400) u)
    (hu' : HexWord (0xDC00 + (c.toNat - 0x10000) % 0x400) u') :
    Spelling c ('\\' :: 'u' :: (u ++ '\\' :: 'u' :: u'))

/-- A way to write a row of characters inside quotes. -/
inductive Spelled : List Char → List Char → Prop
  /-- There are no characters. -/
  | nil : Spelled [] []
  /-- One more character. -/
  | cons {c : Char} {cs v w : List Char} (hc : Spelling c v) (hcs : Spelled cs w) :
    Spelled (c :: cs) (v ++ w)

/-- A way to write a text, its quotes included. -/
def Quoted (t : String) (v : List Char) : Prop := ∃ w, Spelled t.toList w ∧ v = '"' :: (w ++ ['"'])

/-- What may stand between quotes. -/
inductive Pieces : List Char → Prop
  /-- Nothing. -/
  | nil : Pieces []
  /-- A character that stands for itself. -/
  | plain {c : Char} {w : List Char} (hquote : c ≠ '"') (hslash : c ≠ '\\') (hc : 32 ≤ c.toNat)
    (h : Pieces w) : Pieces (c :: w)
  /-- An escape with a letter. -/
  | letter {l c : Char} {w : List Char} (hl : (l, c) ∈ letters) (h : Pieces w) :
    Pieces ('\\' :: l :: w)
  /-- An escape with a number. -/
  | number {n : Nat} {u w : List Char} (hu : HexWord n u) (h : Pieces w) :
    Pieces ('\\' :: 'u' :: (u ++ w))

/-- A text in quotes that is well formed. -/
def IsText (v : List Char) : Prop := ∃ w, Pieces w ∧ v = '"' :: (w ++ ['"'])

/-! ## Numbers -/

/-- Digits only. -/
def Digits (w : List Char) : Prop := ∀ c ∈ w, c.isDigit = true

/-- The digits before the point, without needless zeros. -/
inductive Whole : List Char → Prop
  /-- A zero. -/
  | zero : Whole ['0']
  /-- Digits of which the first is not zero. -/
  | digits {d : Char} {ds : List Char} (hd : d.isDigit = true) (hzero : d ≠ '0') (hds : Digits ds) :
    Whole (d :: ds)

/-- A point with digits after it, or nothing. -/
inductive Fraction : List Char → Prop
  /-- There is no point. -/
  | none : Fraction []
  /-- At least one digit follows the point. -/
  | digits {d : Char} {ds : List Char} (h : Digits (d :: ds)) : Fraction ('.' :: d :: ds)

/-- An exponent, or nothing. -/
inductive Exponent : List Char → Prop
  /-- There is no exponent. -/
  | none : Exponent []
  /-- A mark, perhaps a sign, and at least one digit. -/
  | digits {e d : Char} {sign ds : List Char} (he : e = 'e' ∨ e = 'E')
    (hsign : sign = [] ∨ sign = ['+'] ∨ sign = ['-']) (h : Digits (d :: ds)) :
    Exponent (e :: (sign ++ d :: ds))

/-- A number that is well formed. -/
inductive IsNumber : List Char → Prop
  /-- An optional minus and the three parts. -/
  | parts {sign w f e : List Char} (hsign : sign = [] ∨ sign = ['-']) (hw : Whole w)
    (hf : Fraction f) (he : Exponent e) : IsNumber (sign ++ (w ++ (f ++ e)))

/-! ## Lists, objects and values -/

/-- What stands between the brackets of a list or an object, of which each part is written somehow.
The flag tells whether a part may come at once or only after a comma. -/
inductive Items (P : α → List Char → Prop) : Bool → List α → List Char → Prop
  /-- There are no more parts. -/
  | nil {first : Bool} {b : List Char} (hb : Blanks b) : Items P first [] b
  /-- The first part. -/
  | first {x : α} {xs : List α} {a v w : List Char} (ha : Blanks a) (hx : P x v)
    (hxs : Items P false xs w) : Items P true (x :: xs) (a ++ (v ++ w))
  /-- A part that follows another one. -/
  | next {x : α} {xs : List α} {b a v w : List Char} (hb : Blanks b) (ha : Blanks a) (hx : P x v)
    (hxs : Items P false xs w) : Items P false (x :: xs) (b ++ ',' :: (a ++ (v ++ w)))

/-- A member of an object: its name, which is written somehow, a colon and its value. -/
def Member (N : ν → List Char → Prop) (m : ν × List Char) (v : List Char) : Prop :=
  ∃ name a b, N m.1 name ∧ Blanks a ∧ Blanks b ∧ v = name ++ (a ++ ':' :: (b ++ m.2))

/-- A list with the given elements. -/
def ListOf (vs : List (List Char)) (w : List Char) : Prop :=
  ∃ inner, Items Eq true vs inner ∧ w = '[' :: (inner ++ [']'])

/-- An object with the given members, of which the names are written somehow. -/
def ObjectOf (N : ν → List Char → Prop) (ms : List (ν × List Char)) (w : List Char) : Prop :=
  ∃ inner, Items (Member N) true ms inner ∧ w = '{' :: (inner ++ ['}'])

/-- The name of a member of which only the form counts. -/
def AnyName (_ : Unit) (v : List Char) : Prop := IsText v

/-- A value that is well formed, to whatever depth. -/
inductive Value : List Char → Prop
  /-- One of the three words. -/
  | word {w : List Char} (h : w ∈ ["null".toList, "true".toList, "false".toList]) : Value w
  /-- A number. -/
  | number {w : List Char} (h : IsNumber w) : Value w
  /-- A text. -/
  | text {w : List Char} (h : IsText w) : Value w
  /-- A list of values. -/
  | list {vs : List (List Char)} {w : List Char} (h : ListOf vs w) (hvs : ∀ v ∈ vs, Value v) :
    Value w
  /-- An object whose members have values. -/
  | object {ms : List (Unit × List Char)} {w : List Char} (h : ObjectOf AnyName ms w)
    (hms : ∀ m ∈ ms, Value m.2) : Value w

/-- The names of members, in their order. -/
def names (ms : List (String × List Char)) : List String := ms.map (·.1)

/-! ## How written parts begin and what may follow them -/

/-- What follows a part in quotes or brackets follows its last character. -/
lemma enclosed_append (opener closer : Char) (w rest : List Char) :
    opener :: (w ++ [closer]) ++ rest = opener :: (w ++ closer :: rest) := by
  rw [List.cons_append, List.append_assoc, List.singleton_append]

lemma Spelling.pieces {c : Char} (hc : Spelling c v) (hw : Pieces w) : Pieces (v ++ w) := by
  cases hc with
  | plain hquote hslash hc => exact .plain hquote hslash hc hw
  | letter h => exact .letter h hw
  | number hu => exact .number hu hw
  | pair _ hu hu' =>
    rw [List.cons_append, List.cons_append, List.append_assoc]
    exact .number hu (.number hu' hw)

lemma Spelled.pieces {cs : List Char} (h : Spelled cs w) : Pieces w := by
  induction h with
  | nil => exact .nil
  | cons hc _ ih => exact hc.pieces ih

/-- What is written for a text is well formed. -/
lemma Quoted.isText {t : String} (h : Quoted t v) : IsText v := by
  obtain ⟨w, hw, rfl⟩ := h
  exact ⟨w, hw.pieces, rfl⟩

lemma IsText.begins (h : IsText v) : ∃ w, v = '"' :: w := by
  obtain ⟨w, -, rfl⟩ := h
  exact ⟨_, rfl⟩

lemma Whole.begins (h : Whole w) : ∃ d ds, w = d :: ds ∧ d.isDigit = true := by
  cases h with
  | zero => exact ⟨'0', [], rfl, rfl⟩
  | digits hd _ _ => exact ⟨_, _, rfl, hd⟩

lemma IsNumber.begins (h : IsNumber w) : ∃ d ds, w = d :: ds ∧ (d = '-' ∨ d.isDigit = true) := by
  obtain ⟨hsign, hw, -, -⟩ := h
  rcases hsign with rfl | rfl
  · obtain ⟨d, ds, rfl, hd⟩ := hw.begins
    exact ⟨d, _, rfl, Or.inr hd⟩
  · exact ⟨'-', _, rfl, Or.inl rfl⟩

/-- A digit is none of the marks of a document. -/
lemma ne_of_isDigit {c d : Char} (hc : c.isDigit = true) (hd : d.isDigit = false) : c ≠ d := by
  rintro rfl
  rw [hc] at hd
  cases hd

lemma isBlank_of_isDigit {c : Char} (hc : c.isDigit = true) : isBlank c = false := by
  simp [isBlank, ne_of_isDigit hc (d := ' ') rfl, ne_of_isDigit hc (d := '\n') rfl,
    ne_of_isDigit hc (d := '\t') rfl, ne_of_isDigit hc (d := '\r') rfl]

/-- A value begins as a value does. -/
lemma Value.beginsValue (h : Value v) : BeginsValue v := by
  cases h with
  | word h =>
    simp only [List.mem_cons, List.not_mem_nil, or_false] at h
    rcases h with rfl | rfl | rfl
    · exact ⟨'n', "ull".toList, by decide, by decide, by decide⟩
    · exact ⟨'t', "rue".toList, by decide, by decide, by decide⟩
    · exact ⟨'f', "alse".toList, by decide, by decide, by decide⟩
  | number h =>
    obtain ⟨d, ds, rfl, rfl | hd⟩ := h.begins
    · exact ⟨'-', ds, rfl, rfl, by decide⟩
    · exact ⟨d, ds, rfl, isBlank_of_isDigit hd, ne_of_isDigit hd rfl⟩
  | text h =>
    obtain ⟨w, rfl⟩ := h.begins
    exact ⟨'"', w, rfl, rfl, by decide⟩
  | list h _ =>
    obtain ⟨inner, -, rfl⟩ := h
    exact ⟨'[', _, rfl, rfl, by decide⟩
  | object h _ =>
    obtain ⟨inner, -, rfl⟩ := h
    exact ⟨'{', _, rfl, rfl, by decide⟩

lemma Items.map {β : Type} {P : α → List Char → Prop} {Q : β → List Char → Prop} {f : α → β}
    {first : Bool} {xs : List α} (hP : ∀ {x v}, P x v → Q (f x) v) (h : Items P first xs w) :
    Items Q first (xs.map f) w := by
  induction h with
  | nil hb => exact .nil hb
  | first ha hx _ ih => exact .first ha (hP hx) ih
  | next hb ha hx _ ih => exact .next hb ha (hP hx) ih

/-- An object is a value if its members have values, whatever their names. -/
lemma ObjectOf.value {ms : List (String × List Char)} (h : ObjectOf Quoted ms w)
    (hms : ∀ m ∈ ms, Value m.2) : Value w := by
  obtain ⟨inner, hitems, rfl⟩ := h
  have hany : Items (Member AnyName) true (ms.map fun m => ((), m.2)) inner := by
    refine hitems.map ?_
    rintro m v ⟨name, a, b, hname, ha, hb, rfl⟩
    exact ⟨name, a, b, hname.isText, ha, hb, rfl⟩
  refine .object ⟨inner, hany, rfl⟩ fun m hm => ?_
  obtain ⟨m', hm', rfl⟩ := List.mem_map.1 hm
  exact hms m' hm'

/-- What follows cannot be taken for a part of a number. -/
def Apart (rest : List Char) : Prop :=
  ∀ c ∈ rest.head?, c.isDigit = false ∧ c ≠ '.' ∧ c ≠ 'e' ∧ c ≠ 'E'

lemma Blanks.apart_append {b : List Char} (hb : Blanks b) (h : Apart rest) : Apart (b ++ rest) := by
  cases b with
  | nil => exact h
  | cons c b =>
    intro d hd
    cases hd
    have hc := hb c List.mem_cons_self
    simp only [isBlank, Bool.or_eq_true, decide_eq_true_eq] at hc
    rcases hc with ((rfl | rfl) | rfl) | rfl <;> decide

/-- After a part of a container comes a blank, a comma or the closing bracket. -/
lemma Items.apart {P : α → List Char → Prop} {xs : List α} (h : Items P false xs w)
    (hrest : Apart rest) : Apart (w ++ rest) := by
  cases h with
  | nil hb => exact hb.apart_append hrest
  | next hb _ _ _ =>
    rw [List.append_assoc]
    refine hb.apart_append ?_
    rintro c ⟨⟩
    decide

lemma apart_closer (f : Frame) (rest : List Char) : Apart (f.closer :: rest) := by
  rintro c ⟨⟩
  cases f <;> decide

/-! ## What is written compactly

The compact way to write a text, an object or a list is one of the ways to write it. -/

lemma mem_letters_of_letterEscape? {l c : Char} (h : letterEscape? l = some c) : (l, c) ∈ letters := by
  rw [letterEscape?] at h
  iterate 8
    split at h
    · next hl =>
      cases h
      rw [hl]
      decide
  cases h

lemma spelling_quoteChar (c : Char) : Spelling c (quoteChar c) := by
  obtain ⟨letter, hletter, hc⟩ | ⟨hcontrol, hc⟩ | ⟨hquote, hslash, hplain, hc⟩ := quoteChar_cases c
  · rw [hc]
    exact .letter (mem_letters_of_letterEscape? hletter)
  · rw [hc]
    refine .number (.digits ?_ ?_ ?_ ?_)
    · rw [Nat.div_eq_of_lt (by omega)]
      decide
    · rw [Nat.div_eq_of_lt (by omega)]
      decide
    · rw [Nat.mod_eq_of_lt (a := c.toNat / 16) (by omega)]
      exact ⟨by omega, Or.inl rfl⟩
    · exact ⟨by omega, Or.inl rfl⟩
  · rw [hc]
    exact .plain hquote hslash hplain

lemma spelled_flatMap_quoteChar (cs : List Char) : Spelled cs (cs.flatMap quoteChar) := by
  induction cs with
  | nil => exact .nil
  | cons c cs ih =>
    rw [List.flatMap_cons]
    exact .cons (spelling_quoteChar c) ih

lemma quoted_quote (t : String) : Quoted t (quote t) := ⟨_, spelled_flatMap_quoteChar t.toList, rfl⟩

lemma value_quote (t : String) : Value (quote t) := .text (quoted_quote t).isText

lemma member_quote (m : String × List Char) {a b : List Char} (ha : Blanks a) (hb : Blanks b) :
    Member Quoted m (quote m.1 ++ (a ++ ':' :: (b ++ m.2))) :=
  ⟨quote m.1, a, b, quoted_quote m.1, ha, hb, rfl⟩

lemma items_flatMap {P : α → List Char → Prop} {write : α → List Char} (hP : ∀ x, P x (write x))
    (xs : List α) : Items P false xs (xs.flatMap fun x => ',' :: write x) := by
  induction xs with
  | nil => exact .nil (b := []) (by decide)
  | cons x xs ih => exact .next (b := []) (a := []) (by decide) (by decide) (hP x) ih

lemma items_writeCommas {P : α → List Char → Prop} {write : α → List Char} (hP : ∀ x, P x (write x))
    (xs : List α) : Items P true xs (writeCommas (xs.map write)) := by
  cases xs with
  | nil => exact .nil (b := []) (by decide)
  | cons x xs =>
    rw [List.map_cons, writeCommas_cons, List.flatMap_map]
    exact .first (a := []) (by decide) (hP x) (items_flatMap hP xs)

lemma objectOf_writeObject (ms : List (String × List Char)) :
    ObjectOf Quoted ms (writeObject (ms.map fun m => writeMember m.1 m.2)) :=
  ⟨_, items_writeCommas (fun m => member_quote m (a := []) (b := []) (by decide) (by decide)) ms, rfl⟩

lemma listOf_writeList (vs : List (List Char)) : ListOf vs (writeList vs) := by
  have hitems := items_writeCommas (fun v : List Char => (rfl : v = v)) vs
  rw [List.map_id'] at hitems
  exact ⟨_, hitems, rfl⟩

end Glossary.Json
