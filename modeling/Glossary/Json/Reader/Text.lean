import Glossary.Json.Fault

/-!
# Reading quoted text

Readers that start just after the opening quote of a text.  `textBody` gives the text that the
quotes enclose; `skipText` only looks for the closing quote, and is less strict about the
numbers of escaped characters.
-/

namespace Glossary.Json

/-- The value of a hexadecimal digit. -/
def hexValue? (c : Char) : Option Nat :=
  if '0' ≤ c ∧ c ≤ '9' then some (c.toNat - '0'.toNat)
  else if 'a' ≤ c ∧ c ≤ 'f' then some (c.toNat - 'a'.toNat + 10)
  else if 'A' ≤ c ∧ c ≤ 'F' then some (c.toNat - 'A'.toNat + 10)
  else none

/-- The fault of four bytes that are not hexadecimal digits. -/
def hexFault (s : List Char) : Fault :=
  ⟨if byteCount (s.take 4) < 4 then .endInText else .badEscape, s, 4⟩

/-- Reads four hexadecimal digits. -/
def fourHex (s : List Char) : Except Fault (Nat × List Char) :=
  match s with
  | a :: b :: c :: d :: rest =>
    match hexValue? a, hexValue? b, hexValue? c, hexValue? d with
    | some a, some b, some c, some d => .ok (((a * 16 + b) * 16 + c) * 16 + d, rest)
    | _, _, _, _ => .error (hexFault s)
  | _ => .error (hexFault s)

theorem fourHex_length {s rest : List Char} {n : Nat} (h : fourHex s = .ok (n, rest)) :
    rest.length < s.length := by
  unfold fourHex at h
  split at h
  · split at h
    · cases h
      simp only [List.length_cons]
      omega
    · cases h
  · cases h

/-- Whether a number is the first half of a surrogate pair. -/
def isHighSurrogate (n : Nat) : Bool := 0xD800 ≤ n && n ≤ 0xDBFF

/-- Whether a number is the second half of a surrogate pair. -/
def isLowSurrogate (n : Nat) : Bool := 0xDC00 ≤ n && n ≤ 0xDFFF

/-- The character of a surrogate pair. -/
def surrogatePair (high low : Nat) : Char :=
  Char.ofNat ((high - 0xD800) * 0x400 + (low - 0xDC00) + 0x10000)

/-- Reads one character that has to be there. -/
def expectMark (mark : Char) : List Char → Except Fault (List Char)
  | [] => .error ⟨.endInText, [], 0⟩
  | c :: rest => if c = mark then .ok rest else .error ⟨.cutSurrogate, c :: rest, 1⟩

theorem expectMark_length {mark : Char} {s rest : List Char}
    (h : expectMark mark s = .ok rest) : rest.length < s.length := by
  cases s with
  | nil => cases h
  | cons c s =>
    simp only [expectMark] at h
    split at h
    · cases h
      simp
    · cases h

/-- Reads the second half of a surrogate pair, the escape that announces it included. -/
def lowSurrogate (high : Nat) (s : List Char) : Except Fault (Char × List Char) :=
  match expectMark '\\' s with
  | .error f => .error f
  | .ok s₁ =>
    match expectMark 'u' s₁ with
    | .error f => .error f
    | .ok s₂ =>
      match fourHex s₂ with
      | .error f => .error f
      | .ok (low, rest) =>
        if isLowSurrogate low then .ok (surrogatePair high low, rest)
        else .error ⟨.loneSurrogate, rest, 0⟩

theorem lowSurrogate_length {high : Nat} {s rest : List Char} {c : Char}
    (h : lowSurrogate high s = .ok (c, rest)) : rest.length < s.length := by
  unfold lowSurrogate at h
  split at h
  · cases h
  · next s₁ h₁ =>
    split at h
    · cases h
    · next s₂ h₂ =>
      split at h
      · cases h
      · next low r h₃ =>
        split at h
        · simp only [Except.ok.injEq, Prod.mk.injEq] at h
          have := expectMark_length h₁
          have := expectMark_length h₂
          have := fourHex_length h₃
          rw [← h.2]
          omega
        · cases h

/-- Reads the number of an escaped character.  A number above the first plane is written as a
surrogate pair. -/
def numberedEscape (s : List Char) : Except Fault (Char × List Char) :=
  match fourHex s with
  | .error f => .error f
  | .ok (n, rest) =>
    if isLowSurrogate n then .error ⟨.loneSurrogate, rest, 0⟩
    else if isHighSurrogate n then lowSurrogate n rest
    else .ok (Char.ofNat n, rest)

theorem numberedEscape_length {s rest : List Char} {c : Char}
    (h : numberedEscape s = .ok (c, rest)) : rest.length < s.length := by
  unfold numberedEscape at h
  split at h
  · cases h
  · next n r h₁ =>
    have := fourHex_length h₁
    split at h
    · cases h
    · split at h
      · have := lowSurrogate_length h
        omega
      · simp only [Except.ok.injEq, Prod.mk.injEq] at h
        rw [← h.2]
        assumption

/-- The character that a letter after a backslash stands for. -/
def letterEscape? (c : Char) : Option Char :=
  if c = '"' then some '"'
  else if c = '\\' then some '\\'
  else if c = '/' then some '/'
  else if c = 'b' then some '\x08'
  else if c = 'f' then some '\x0c'
  else if c = 'n' then some '\n'
  else if c = 'r' then some '\r'
  else if c = 't' then some '\t'
  else none

/-- Reads an escape, after its backslash. -/
def escape (s : List Char) : Except Fault (Char × List Char) :=
  match s with
  | [] => .error ⟨.endInText, [], 0⟩
  | c :: rest =>
    match letterEscape? c with
    | some d => .ok (d, rest)
    | none => if c = 'u' then numberedEscape rest else .error ⟨.badEscape, s, 1⟩

theorem escape_length {s rest : List Char} {c : Char} (h : escape s = .ok (c, rest)) :
    rest.length < s.length := by
  unfold escape at h
  split at h
  · cases h
  · split at h
    · cases h
      simp
    · split at h
      · have := numberedEscape_length h
        simp only [List.length_cons]
        omega
      · cases h

/-- Reads a text up to its closing quote.  The characters read so far are kept in reverse. -/
def textBody (sofar : List Char) (s : List Char) : Except Fault (String × List Char) :=
  match s with
  | [] => .error ⟨.endInText, [], 0⟩
  | c :: rest =>
    if c = '"' then .ok (String.ofList sofar.reverse, rest)
    else if c = '\\' then
      match _h : escape rest with
      | .error f => .error f
      | .ok (d, rest') => textBody (d :: sofar) rest'
    else if c.toNat < 32 then .error ⟨.bareControl, s, 1⟩
    else textBody (c :: sofar) rest
termination_by s.length
decreasing_by
  · have := escape_length _h
    simp only [List.length_cons]
    omega
  · simp

/-- Passes over an escape, after its backslash. -/
def skipEscape (s : List Char) : Except Fault (List Char) :=
  match s with
  | [] => .error ⟨.endInText, [], 0⟩
  | c :: rest =>
    match letterEscape? c with
    | some _ => .ok rest
    | none =>
      if c = 'u' then
        match fourHex rest with
        | .error f => .error f
        | .ok (_, rest') => .ok rest'
      else .error ⟨.badEscape, s, 1⟩

theorem skipEscape_length {s rest : List Char} (h : skipEscape s = .ok rest) :
    rest.length < s.length := by
  unfold skipEscape at h
  split at h
  · cases h
  · split at h
    · cases h
      simp
    · split at h
      · split at h
        · cases h
        · next n r h₁ =>
          cases h
          have := fourHex_length h₁
          simp only [List.length_cons]
          omega
      · cases h

/-- Passes over a text up to its closing quote. -/
def skipText (s : List Char) : Except Fault (List Char) :=
  match s with
  | [] => .error ⟨.endInText, [], 0⟩
  | c :: rest =>
    if c = '"' then .ok rest
    else if c = '\\' then
      match _h : skipEscape rest with
      | .error f => .error f
      | .ok rest' => skipText rest'
    else if c.toNat < 32 then .error ⟨.bareControl, s, 0⟩
    else skipText rest
termination_by s.length
decreasing_by
  · have := skipEscape_length _h
    simp only [List.length_cons]
    omega
  · simp

end Glossary.Json
