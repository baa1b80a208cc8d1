import Glossary.Proofs.Json.Grammar

/-!
# Texts and numbers, however they are written

A text that is written in any of the possible ways is read as that text, and a text or a number that is
well formed is passed over up to its end.

Reading and passing over are not the same: half of a surrogate pair is passed over but not read.  Where
a text is read at all, both stop at the same place.  That is `skipText_of_textBody`, and there a pair,
which is read at once, is passed over in two steps.
-/

namespace Glossary.Json

variable {v w u rest s sofar : List Char} {c d : Char} {n : Nat}

/-! ## Escapes -/

lemma letterEscape?_of_mem : ∀ p ∈ letters, letterEscape? p.1 = some p.2 := by
  decide

lemma hexValue?_toUpper : ∀ n < 16, hexValue? (hexDigit n).toUpper = some n := by
  decide

lemma IsHex.hexValue?_eq (h : IsHex n c) : hexValue? c = some n := by
  obtain ⟨hn, rfl | rfl⟩ := h
  · exact hexValue?_hexDigit n hn
  · exact hexValue?_toUpper n hn

lemma HexWord.fourHex_eq (h : HexWord n u) (rest : List Char) : fourHex (u ++ rest) = .ok (n, rest) := by
  obtain ⟨ha, hb, hc, hd⟩ := h
  have hlt := ha.1
  have hvalue :
      ((n / 0x1000 * 16 + n / 0x100 % 16) * 16 + n / 16 % 16) * 16 + n % 16 = n := by omega
  simp only [List.cons_append, List.nil_append, fourHex, ha.hexValue?_eq, hb.hexValue?_eq,
    hc.hexValue?_eq, hd.hexValue?_eq, hvalue]

lemma skipEscape_of_letter (h : (d, c) ∈ letters) (rest : List Char) :
    skipEscape (d :: rest) = .ok rest := by
  simp only [skipEscape, letterEscape?_of_mem _ h]

lemma skipEscape_of_fourHex (h : fourHex s = .ok (n, rest)) : skipEscape ('u' :: s) = .ok rest := by
  have hletter : letterEscape? 'u' = none := by decide
  simp only [skipEscape, hletter, if_true, h]

/-- A character is no half of a surrogate pair. -/
lemma not_surrogate (c : Char) : isLowSurrogate c.toNat = false ∧ isHighSurrogate c.toNat = false := by
  have hvalid : Nat.isValidChar c.toNat := c.valid
  simp only [Nat.isValidChar] at hvalid
  simp only [isLowSurrogate, isHighSurrogate, Bool.and_eq_false_iff, decide_eq_false_iff_not]
  omega

lemma escape_of_number (h : HexWord c.toNat u) (rest : List Char) :
    escape ('u' :: (u ++ rest)) = .ok (c, rest) := by
  have hletter : letterEscape? 'u' = none := by decide
  obtain ⟨hlow, hhigh⟩ := not_surrogate c
  simp only [escape, hletter, if_true, numberedEscape, h.fourHex_eq, hlow, hhigh, Bool.false_eq_true,
    if_false, Char.ofNat_toNat]

lemma escape_of_pair {u' : List Char} (hc : 0x10000 ≤ c.toNat)
    (hu : HexWord (0xD800 + (c.toNat - 0x10000) / 0x400) u)
    (hu' : HexWord (0xDC00 + (c.toNat - 0x10000) % 0x400) u') (rest : List Char) :
    escape ('u' :: (u ++ '\\' :: 'u' :: (u' ++ rest))) = .ok (c, rest) := by
  have hletter : letterEscape? 'u' = none := by decide
  have hvalid : Nat.isValidChar c.toNat := c.valid
  simp only [Nat.isValidChar] at hvalid
  have hnotLow : isLowSurrogate (0xD800 + (c.toNat - 0x10000) / 0x400) = false := by
    simp only [isLowSurrogate, Bool.and_eq_false_iff, decide_eq_false_iff_not]
    omega
  have hhigh : isHighSurrogate (0xD800 + (c.toNat - 0x10000) / 0x400) = true := by
    simp only [isHighSurrogate, Bool.and_eq_true, decide_eq_true_eq]
    omega
  have hlow : isLowSurrogate (0xDC00 + (c.toNat - 0x10000) % 0x400) = true := by
    simp only [isLowSurrogate, Bool.and_eq_true, decide_eq_true_eq]
    omega
  have hchar : surrogatePair (0xD800 + (c.toNat - 0x10000) / 0x400)
      (0xDC00 + (c.toNat - 0x10000) % 0x400) = c := by
    have hnumber : (0xD800 + (c.toNat - 0x10000) / 0x400 - 0xD800) * 0x400 +
        (0xDC00 + (c.toNat - 0x10000) % 0x400 - 0xDC00) + 0x10000 = c.toNat := by omega
    rw [surrogatePair, hnumber, Char.ofNat_toNat]
  simp only [escape, hletter, if_true, numberedEscape, hu.fourHex_eq, hnotLow, hhigh,
    Bool.false_eq_true, if_false, lowSurrogate, expectMark, hu'.fourHex_eq, hlow, hchar]

/-! ## Texts that are read -/

lemma Spelling.textBody_eq (h : Spelling c v) (sofar rest : List Char) :
    textBody sofar (v ++ rest) = textBody (c :: sofar) rest := by
  cases h with
  | plain hquote hslash hc => exact textBody_of_plain hquote hslash hc
  | letter h => exact textBody_of_escape (escape_of_letter (letterEscape?_of_mem _ h))
  | number hu => exact textBody_of_escape (escape_of_number hu rest)
  | pair hc hu hu' =>
    rw [List.cons_append, List.cons_append, List.append_assoc]
    exact textBody_of_escape (escape_of_pair hc hu hu' rest)

lemma Spelled.textBody_eq {cs : List Char} (h : Spelled cs w) (sofar rest : List Char) :
    textBody sofar (w ++ '"' :: rest) = .ok (String.ofList (sofar.reverse ++ cs), rest) := by
  induction h generalizing sofar with
  | nil => simp [textBody_of_quote]
  | cons hc _ ih =>
    rw [List.append_assoc, hc.textBody_eq, ih, List.reverse_cons, List.append_assoc,
      List.singleton_append]

/-- A member name is read, however it is written. -/
lemma Quoted.memberName_eq {t : String} (h : Quoted t v) (rest : List Char) :
    memberName (v ++ rest) = .ok (t, rest) := by
  obtain ⟨w, hw, rfl⟩ := h
  rw [enclosed_append, memberName, if_pos rfl,
    hw.textBody_eq, List.reverse_nil, List.nil_append, String.ofList_toList]

/-! ## Texts that are passed over -/

lemma skipText_of_skipEscape (h : skipEscape s = .ok rest) :
    skipText ('\\' :: s) = skipText rest := by
  rw [skipText, if_neg (by decide), if_pos rfl]
  split
  · next f hf =>
    rw [h] at hf
    cases hf
  · next r hr =>
    rw [h] at hr
    cases hr
    rfl

lemma skipText_of_plain (hquote : c ≠ '"') (hslash : c ≠ '\\') (hc : 32 ≤ c.toNat) :
    skipText (c :: s) = skipText s := by
  rw [skipText, if_neg hquote, if_neg hslash, if_neg (Nat.not_lt.2 hc)]

lemma skipText_of_quote : skipText ('"' :: rest) = .ok rest := by
  rw [skipText, if_pos rfl]

lemma Pieces.skipText_eq (h : Pieces w) (rest : List Char) :
    skipText (w ++ '"' :: rest) = .ok rest := by
  induction h with
  | nil => exact skipText_of_quote
  | plain hquote hslash hc _ ih => rw [List.cons_append, skipText_of_plain hquote hslash hc, ih]
  | letter hl _ ih =>
    rw [List.cons_append, List.cons_append, skipText_of_skipEscape (skipEscape_of_letter hl _), ih]
  | number hu _ ih =>
    rw [List.cons_append, List.cons_append, List.append_assoc,
      skipText_of_skipEscape (skipEscape_of_fourHex (hu.fourHex_eq _)), ih]

lemma eq_cons_of_expectMark {mark : Char} (h : expectMark mark s = .ok rest) : s = mark :: rest := by
  cases s with
  | nil => cases h
  | cons c s =>
    simp only [expectMark] at h
    split at h
    · next hc =>
      cases h
      rw [hc]
    · cases h

/-- The second half of a surrogate pair is an escape of its own. -/
lemma fourHex_of_lowSurrogate {high : Nat} (h : lowSurrogate high s = .ok (d, rest)) :
    ∃ s₂ low, s = '\\' :: 'u' :: s₂ ∧ fourHex s₂ = .ok (low, rest) := by
  unfold lowSurrogate at h
  split at h
  · cases h
  · next s₁ h₁ =>
    split at h
    · cases h
    · next s₂ h₂ =>
      split at h
      · cases h
      · next low r h₃ =>
        split at h
        · simp only [Except.ok.injEq, Prod.mk.injEq] at h
          rw [eq_cons_of_expectMark h₁, eq_cons_of_expectMark h₂, ← h.2]
          exact ⟨s₂, low, rfl, h₃⟩
        · cases h

lemma skipText_of_numberedEscape (h : numberedEscape s = .ok (d, rest)) :
    skipText ('\\' :: 'u' :: s) = skipText rest := by
  unfold numberedEscape at h
  split at h
  · cases h
  · next n r hn =>
    rw [skipText_of_skipEscape (skipEscape_of_fourHex hn)]
    split at h
    · cases h
    · split at h
      · obtain ⟨s₂, low, rfl, hlow⟩ := fourHex_of_lowSurrogate h
        exact skipText_of_skipEscape (skipEscape_of_fourHex hlow)
      · cases h
        rfl

lemma skipText_of_escape (h : escape s = .ok (d, rest)) : skipText ('\\' :: s) = skipText rest := by
  unfold escape at h
  split at h
  · cases h
  · next c s =>
    split at h
    · next hletter =>
      cases h
      exact skipText_of_skipEscape (by simp only [skipEscape, hletter])
    · split at h
      · next hc =>
        subst hc
        exact skipText_of_numberedEscape h
      · cases h

/-- Where a text is read, it is passed over up to the same place. -/
lemma skipText_of_textBody {t : String} (h : textBody sofar s = .ok (t, rest)) :
    skipText s = .ok rest := by
  fun_induction textBody sofar s with
  | case1 => cases h
  | case2 sofar s =>
    cases h
    exact skipText_of_quote
  | case3 => cases h
  | case4 sofar s d s' hd hquote ih =>
    rw [skipText_of_escape hd, ih h]
  | case5 => cases h
  | case6 sofar c s hquote hslash hc ih =>
    rw [skipText_of_plain hquote hslash (Nat.not_lt.1 hc), ih h]

/-! ## Numbers -/

/-- Digits are taken up to the first character that is none. -/
lemma Digits.span_eq (h : Digits w) (hrest : ∀ c ∈ rest.head?, c.isDigit = false) :
    (w ++ rest).takeWhile Char.isDigit = w ∧ (w ++ rest).dropWhile Char.isDigit = rest := by
  rw [List.takeWhile_append_of_pos h, List.dropWhile_append_of_pos h]
  cases rest with
  | nil => simp
  | cons c rest => simp [hrest c rfl]

lemma Whole.wholeDigits_eq (h : Whole w) (hrest : ∀ c ∈ rest.head?, c.isDigit = false) (e : Cause) :
    wholeDigits e (w ++ rest) = .ok (w, rest) := by
  cases h with
  | zero =>
    have hnone : rest.head?.any Char.isDigit = false := by
      cases rest with
      | nil => rfl
      | cons c rest => simpa using hrest c rfl
    simp [wholeDigits, hnone]
  | digits hd hzero hds =>
    obtain ⟨htake, hdrop⟩ := hds.span_eq hrest
    simp [wholeDigits, hzero, hd, htake, hdrop]

lemma Fraction.fractionDigits?_eq (h : Fraction w)
    (hrest : ∀ c ∈ rest.head?, c.isDigit = false ∧ c ≠ '.') (e : Cause) :
    ∃ digits, fractionDigits? e (w ++ rest) = .ok (digits, rest) := by
  cases h with
  | none =>
    cases rest with
    | nil => exact ⟨Option.none, rfl⟩
    | cons c rest => exact ⟨Option.none, by simp [fractionDigits?, (hrest c rfl).2]⟩
  | @digits d ds h =>
    obtain ⟨htake, hdrop⟩ := h.span_eq fun c hc => (hrest c hc).1
    refine ⟨some (d :: ds), ?_⟩
    rw [List.cons_append, fractionDigits?, if_pos rfl, htake, hdrop]

lemma exponentSign_append {sign : List Char} (h : sign = [] ∨ sign = ['+'] ∨ sign = ['-'])
    (hd : d.isDigit = true) (s : List Char) :
    ∃ negative, exponentSign (sign ++ d :: s) = (negative, d :: s) := by
  rcases h with rfl | rfl | rfl
  · refine ⟨false, ?_⟩
    rw [List.nil_append, exponentSign, if_neg (ne_of_isDigit hd rfl), if_neg (ne_of_isDigit hd rfl)]
  · exact ⟨false, rfl⟩
  · exact ⟨true, rfl⟩

lemma Exponent.exponentDigits?_eq (h : Exponent w) (hrest : Apart rest) (e : Cause) :
    ∃ digits, exponentDigits? e (w ++ rest) = .ok (digits, rest) := by
  cases h with
  | none =>
    cases rest with
    | nil => exact ⟨Option.none, rfl⟩
    | cons c rest =>
      obtain ⟨-, -, hsmall, hcapital⟩ := hrest c rfl
      exact ⟨Option.none, by simp [exponentDigits?, hsmall, hcapital]⟩
  | @digits mark d sign ds he hsign h =>
    have hd : d.isDigit = true := h d List.mem_cons_self
    have hds : Digits ds := fun c hc => h c (List.mem_cons_of_mem _ hc)
    obtain ⟨htake, hdrop⟩ := hds.span_eq fun c hc => (hrest c hc).1
    obtain ⟨negative, hnegative⟩ := exponentSign_append hsign hd (ds ++ rest)
    refine ⟨some (negative, d :: ds), ?_⟩
    rw [List.cons_append, List.append_assoc, List.cons_append, exponentDigits?, if_pos he, hnegative]
    simp only [hd, if_true, htake, hdrop]

lemma Exponent.apart (h : Exponent w) (hrest : Apart rest) :
    ∀ c ∈ (w ++ rest).head?, c.isDigit = false ∧ c ≠ '.' := by
  cases h with
  | none => exact fun c hc => ⟨(hrest c hc).1, (hrest c hc).2.1⟩
  | digits he _ _ =>
    rintro c ⟨⟩
    rcases he with rfl | rfl <;> decide

lemma Fraction.apart (h : Fraction w) (hrest : ∀ c ∈ rest.head?, c.isDigit = false ∧ c ≠ '.') :
    ∀ c ∈ (w ++ rest).head?, c.isDigit = false := by
  cases h with
  | none => exact fun c hc => (hrest c hc).1
  | digits _ =>
    rintro c ⟨⟩
    decide

/-- A number without its sign is passed over. -/
lemma skipNumber_append {f e : List Char} (hw : Whole w) (hf : Fraction f) (he : Exponent e)
    (hrest : Apart rest) : skipNumber (w ++ (f ++ (e ++ rest))) = .ok rest := by
  have hafter := he.apart hrest
  obtain ⟨digits, hdigits⟩ := hf.fractionDigits?_eq hafter .badNumber
  obtain ⟨exponent, hexponent⟩ := he.exponentDigits?_eq hrest .badNumber
  rw [skipNumber, numeral, hw.wholeDigits_eq (hf.apart hafter)]
  simp only [bind, Except.bind, hdigits, hexponent]
  rfl

end Glossary.Json
