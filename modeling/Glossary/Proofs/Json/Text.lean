import Glossary.Json.Reader.Mismatch
import Glossary.Json.Writer
import Mathlib.Tactic.Lemma

/-!
# Written text is read back

A text is written character by character, so it is enough to look at one character: whatever is
written for it, the reader takes that much and adds the character to what it has read so far.  This
holds whatever follows, and so for the whole text.
-/

namespace Glossary.Json

variable {sofar rest s : List Char} {c d : Char}

/-! ## One step of the reader -/

lemma textBody_of_escape (h : escape s = .ok (d, rest)) :
    textBody sofar ('\\' :: s) = textBody (d :: sofar) rest := by
  rw [textBody, if_neg (by decide), if_pos rfl]
  split
  · next f hf =>
    rw [h] at hf
    cases hf
  · next e r he =>
    rw [h] at he
    cases he
    rfl

lemma textBody_of_plain (hquote : c ≠ '"') (hslash : c ≠ '\\') (hc : 32 ≤ c.toNat) :
    textBody sofar (c :: s) = textBody (c :: sofar) s := by
  rw [textBody, if_neg hquote, if_neg hslash, if_neg (Nat.not_lt.2 hc)]

lemma textBody_of_quote : textBody sofar ('"' :: rest) = .ok (String.ofList sofar.reverse, rest) := by
  rw [textBody, if_pos rfl]

lemma escape_of_letter (h : letterEscape? c = some d) : escape (c :: s) = .ok (d, s) := by
  rw [escape]
  simp only [h]

/-! ## Characters that are written by their numbers -/

lemma hexValue?_hexDigit : ∀ n < 16, hexValue? (hexDigit n) = some n := by
  decide

lemma fourHex_hexDigit {n : Nat} (hn : n < 256) (s : List Char) :
    fourHex ('0' :: '0' :: hexDigit (n / 16) :: hexDigit (n % 16) :: s) = .ok (n, s) := by
  have hzero : hexValue? '0' = some 0 := by decide
  have hhigh : hexValue? (hexDigit (n / 16)) = some (n / 16) := hexValue?_hexDigit _ (by omega)
  have hlow : hexValue? (hexDigit (n % 16)) = some (n % 16) := hexValue?_hexDigit _ (by omega)
  have hvalue : ((0 * 16 + 0) * 16 + n / 16) * 16 + n % 16 = n := by omega
  simp only [fourHex, hzero, hhigh, hlow, hvalue]

lemma escape_number (hc : c.toNat < 32) (s : List Char) :
    escape ('u' :: '0' :: '0' :: hexDigit (c.toNat / 16) :: hexDigit (c.toNat % 16) :: s) =
      .ok (c, s) := by
  have hletter : letterEscape? 'u' = none := by decide
  have hlow : isLowSurrogate c.toNat = false := by
    simp only [isLowSurrogate, Bool.and_eq_false_iff, decide_eq_false_iff_not]
    omega
  have hhigh : isHighSurrogate c.toNat = false := by
    simp only [isHighSurrogate, Bool.and_eq_false_iff, decide_eq_false_iff_not]
    omega
  simp only [escape, hletter, if_true, numberedEscape, fourHex_hexDigit (by omega : c.toNat < 256),
    hlow, hhigh, Bool.false_eq_true, if_false, Char.ofNat_toNat]

/-! ## Whole texts -/

/-- A character is written by a letter of its own, by its number, or as it is. -/
lemma quoteChar_cases (c : Char) :
    (∃ letter, letterEscape? letter = some c ∧ quoteChar c = ['\\', letter]) ∨
    (c.toNat < 32 ∧ quoteChar c =
      ['\\', 'u', '0', '0', hexDigit (c.toNat / 16), hexDigit (c.toNat % 16)]) ∨
    (c ≠ '"' ∧ c ≠ '\\' ∧ 32 ≤ c.toNat ∧ quoteChar c = [c]) := by
  by_cases hquote : c = '"'
  · subst hquote
    exact Or.inl ⟨'"', rfl, rfl⟩
  by_cases hslash : c = '\\'
  · subst hslash
    exact Or.inl ⟨'\\', rfl, rfl⟩
  by_cases hback : c = '\x08'
  · subst hback
    exact Or.inl ⟨'b', rfl, rfl⟩
  by_cases hfeed : c = '\x0c'
  · subst hfeed
    exact Or.inl ⟨'f', rfl, rfl⟩
  by_cases hline : c = '\n'
  · subst hline
    exact Or.inl ⟨'n', rfl, rfl⟩
  by_cases hreturn : c = '\r'
  · subst hreturn
    exact Or.inl ⟨'r', rfl, rfl⟩
  by_cases htab : c = '\t'
  · subst htab
    exact Or.inl ⟨'t', rfl, rfl⟩
  rw [quoteChar, if_neg hquote, if_neg hslash, if_neg hback, if_neg hfeed, if_neg hline,
    if_neg hreturn, if_neg htab]
  by_cases hcontrol : c.toNat < 32
  · exact Or.inr (Or.inl ⟨hcontrol, if_pos hcontrol⟩)
  · exact Or.inr (Or.inr ⟨hquote, hslash, Nat.not_lt.1 hcontrol, if_neg hcontrol⟩)

/-- What is written for a character is read as that character. -/
lemma textBody_quoteChar (sofar : List Char) (c : Char) (rest : List Char) :
    textBody sofar (quoteChar c ++ rest) = textBody (c :: sofar) rest := by
  obtain ⟨letter, hletter, hc⟩ | ⟨hcontrol, hc⟩ | ⟨hquote, hslash, hplain, hc⟩ := quoteChar_cases c
  · rw [hc]
    exact textBody_of_escape (escape_of_letter hletter)
  · rw [hc]
    exact textBody_of_escape (escape_number hcontrol rest)
  · rw [hc]
    exact textBody_of_plain hquote hslash hplain

lemma textBody_flatMap_quoteChar (sofar cs rest : List Char) :
    textBody sofar (cs.flatMap quoteChar ++ '"' :: rest) =
      .ok (String.ofList (sofar.reverse ++ cs), rest) := by
  induction cs generalizing sofar with
  | nil => simp [textBody_of_quote]
  | cons c cs ih =>
    rw [List.flatMap_cons, List.append_assoc, textBody_quoteChar, ih, List.reverse_cons,
      List.append_assoc, List.singleton_append]

/-- What stands after the opening quote of a written text is read as the text. -/
lemma textBody_written (t : String) (rest : List Char) :
    textBody [] (t.toList.flatMap quoteChar ++ '"' :: rest) = .ok (t, rest) := by
  rw [textBody_flatMap_quoteChar, List.reverse_nil, List.nil_append, String.ofList_toList]

lemma quote_append (t : String) (rest : List Char) :
    quote t ++ rest = '"' :: (t.toList.flatMap quoteChar ++ '"' :: rest) := by
  simp [quote]

/-- A written text is read back, whatever follows it. -/
lemma text_quote (t : String) (rest : List Char) : text (quote t ++ rest) = .ok (t, rest) := by
  rw [quote_append]
  exact textBody_written t rest

-- a quote, a control character without a letter of its own, and one beyond the first plane
example : quote "\"\x01𝄞" = "\"\\\"\\u0001𝄞\"".toList := by decide

end Glossary.Json
