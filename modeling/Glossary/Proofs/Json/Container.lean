import Glossary.Proofs.Json.Text

/-!
# Written objects and lists are read back

`members` and `elements` run through a container with a bound on the number of turns.  `Members` and
`Elements` say what such a run does without a bound: one member or element after another is handed
to the reader, up to the closing bracket.  Each takes at least one character, so the bound is never
reached, and later proofs need not look at it.

A container that was written compactly is run through from its first character to its closing
bracket: that is `Takes.members_eq` and `Gathers.elements_eq`.  They ask of the reader only that it
reads back each member or element by itself, whatever follows.
-/

namespace Glossary.Json

variable {σ : Type} {first : Bool} {state state' next : σ} {s rest : List Char}

/-! ## Running through a container -/

/-- Handing the members of an object to a reader leads from one state to another.  What is left
begins with the closing brace. -/
inductive Members (read : σ → String → Reader σ) :
    Bool → σ → List Char → σ → List Char → Prop
  /-- There are no more members. -/
  | done {first : Bool} {state : σ} {s rest : List Char} (h : nextName first s = .ok (none, rest)) :
    Members read first state s state rest
  /-- One more member is read. -/
  | turn {first : Bool} {state next state' : σ} {s value s' rest : List Char} {name : String}
    (hname : nextName first s = .ok (some name, value)) (hread : read state name value = .ok (next, s'))
    (hshorter : s'.length < s.length) (hrest : Members read false next s' state' rest) :
    Members read first state s state' rest

lemma Members.membersUpTo_eq {read : σ → String → Reader σ}
    (h : Members read first state s state' rest) {n : Nat} (hn : s.length < n) :
    membersUpTo read n first state s = .ok (state', rest) := by
  induction h generalizing n with
  | done h =>
    cases n with
    | zero => omega
    | succ n =>
      rw [membersUpTo, h]
      rfl
  | turn hname hread hshorter _ ih =>
    cases n with
    | zero => omega
    | succ n =>
      have hrest := ih (n := n) (by omega)
      rw [membersUpTo, hname]
      simp only [bind, Except.bind, hread, hrest]

lemma Members.members_eq {read : σ → String → Reader σ}
    (h : Members read true state s state' rest) : members read state s = .ok (state', rest) :=
  h.membersUpTo_eq (Nat.lt_succ_self _)

/-- Handing the elements of a list to a reader leads from one state to another.  What is left begins
with the closing bracket. -/
inductive Elements (read : σ → Reader σ) : Bool → σ → List Char → σ → List Char → Prop
  /-- There are no more elements. -/
  | done {first : Bool} {state : σ} {s rest : List Char}
    (h : nextElement first s = .ok (false, rest)) : Elements read first state s state rest
  /-- One more element is read. -/
  | turn {first : Bool} {state next state' : σ} {s value s' rest : List Char}
    (hnext : nextElement first s = .ok (true, value)) (hread : read state value = .ok (next, s'))
    (hshorter : s'.length < s.length) (hrest : Elements read false next s' state' rest) :
    Elements read first state s state' rest

lemma Elements.elementsUpTo_eq {read : σ → Reader σ}
    (h : Elements read first state s state' rest) {n : Nat} (hn : s.length < n) :
    elementsUpTo read n first state s = .ok (state', rest) := by
  induction h generalizing n with
  | done h =>
    cases n with
    | zero => omega
    | succ n =>
      rw [elementsUpTo, h]
      rfl
  | turn hnext hread hshorter _ ih =>
    cases n with
    | zero => omega
    | succ n =>
      have hrest := ih (n := n) (by omega)
      rw [elementsUpTo, hnext]
      simp only [bind, Except.bind, hread, hrest]

lemma Elements.elements_eq {read : σ → Reader σ} (h : Elements read true state s state' rest) :
    elements read state s = .ok (state', rest) :=
  h.elementsUpTo_eq (Nat.lt_succ_self _)

/-! ## What stands between written values -/

/-- After the first of several values every value has a comma before it. -/
lemma writeCommas_cons (v : List Char) (vs : List (List Char)) :
    writeCommas (v :: vs) = v ++ vs.flatMap (',' :: ·) := by
  induction vs generalizing v with
  | nil => simp [writeCommas]
  | cons w vs ih => rw [writeCommas, ih, List.flatMap_cons, List.cons_append]

lemma skipBlanks_of_not_blank {c : Char} (hc : isBlank c = false) (s : List Char) :
    skipBlanks (c :: s) = c :: s :=
  List.dropWhile_cons_of_neg (by simp [hc])

lemma nextName_quote (name : String) (rest : List Char) :
    nextName true (quote name ++ rest) = .ok (some name, rest) := by
  rw [quote_append, nextName, skipBlanks_of_not_blank rfl]
  simp [memberName, textBody_written, bind, Except.bind, pure, Except.pure]

lemma nextName_comma_quote (name : String) (rest : List Char) :
    nextName false (',' :: (quote name ++ rest)) = .ok (some name, rest) := by
  rw [quote_append, nextName, skipBlanks_of_not_blank rfl]
  simp [skipBlanks_of_not_blank (c := '"') rfl, memberName, textBody_written, bind, Except.bind,
    pure, Except.pure]

lemma nextName_close (first : Bool) (rest : List Char) :
    nextName first ('}' :: rest) = .ok (none, '}' :: rest) := rfl

lemma nextElement_close (first : Bool) (rest : List Char) :
    nextElement first (']' :: rest) = .ok (false, ']' :: rest) := rfl

/-! ## Written objects -/

/-- A reader takes written members one after another, each of them whatever follows. -/
inductive Takes (read : σ → String → Reader σ) : σ → List (List Char) → σ → Prop
  /-- There are no members. -/
  | nil (state : σ) : Takes read state [] state
  /-- The reader takes the value of the first member, and then the other members. -/
  | cons {state next state' : σ} {name : String} {value : List Char} {ms : List (List Char)}
    (h : ∀ rest, read state name (':' :: (value ++ rest)) = .ok (next, rest))
    (hrest : Takes read next ms state') : Takes read state (writeMember name value :: ms) state'

lemma writeObject_append (ms : List (List Char)) (rest : List Char) :
    writeObject ms ++ rest = '{' :: (writeCommas ms ++ '}' :: rest) := by
  simp [writeObject]

lemma writeMember_append (name : String) (value rest : List Char) :
    writeMember name value ++ rest = quote name ++ ':' :: (value ++ rest) := by
  simp [writeMember]

variable {ms : List (List Char)}

/-- Members that follow another one. -/
lemma Takes.members_comma {read : σ → String → Reader σ} (h : Takes read state ms state')
    (rest : List Char) :
    Members read false state (ms.flatMap (',' :: ·) ++ '}' :: rest) state' ('}' :: rest) := by
  induction h with
  | nil state => exact .done (nextName_close false rest)
  | @cons state next state' name value ms h _ ih =>
    rw [List.flatMap_cons, List.cons_append, List.cons_append, List.append_assoc,
      writeMember_append]
    refine .turn (nextName_comma_quote name _) (h _) ?_ ih
    simp only [List.length_cons, List.length_append]
    omega

/-- A written object is run through to its closing brace. -/
lemma Takes.members_eq {read : σ → String → Reader σ} (h : Takes read state ms state')
    (rest : List Char) :
    members read state (writeCommas ms ++ '}' :: rest) = .ok (state', '}' :: rest) := by
  refine Members.members_eq ?_
  cases h with
  | nil => exact .done (nextName_close true rest)
  | cons h hrest =>
    rw [writeCommas_cons, List.append_assoc, writeMember_append]
    refine .turn (nextName_quote _ _) (h _) ?_ (hrest.members_comma rest)
    simp only [List.length_cons, List.length_append]
    omega

/-! ## Written lists -/

lemma writeList_append (vs : List (List Char)) (rest : List Char) :
    writeList vs ++ rest = '[' :: (writeCommas vs ++ ']' :: rest) := by
  simp [writeList]

/-- A text begins as a value does: not with a blank, and not with the end of a list. -/
def BeginsValue (v : List Char) : Prop := ∃ c w, v = c :: w ∧ isBlank c = false ∧ c ≠ ']'

lemma BeginsValue.nextElement_eq {v : List Char} (h : BeginsValue v) (rest : List Char) :
    nextElement true (v ++ rest) = .ok (true, v ++ rest) := by
  obtain ⟨c, w, rfl, hblank, hclose⟩ := h
  rw [List.cons_append, nextElement, skipBlanks_of_not_blank hblank]
  simp only [if_neg hclose, if_true]

lemma BeginsValue.nextElement_comma_eq {v : List Char} (h : BeginsValue v) (rest : List Char) :
    nextElement false (',' :: (v ++ rest)) = .ok (true, v ++ rest) := by
  obtain ⟨c, w, rfl, hblank, hclose⟩ := h
  rw [nextElement, skipBlanks_of_not_blank rfl, List.cons_append]
  simp [skipBlanks_of_not_blank hblank, hclose]

/-- A reader gathers written elements one after another, each of them whatever follows. -/
inductive Gathers (read : σ → Reader σ) : σ → List (List Char) → σ → Prop
  /-- There are no elements. -/
  | nil (state : σ) : Gathers read state [] state
  /-- The reader takes the first element, and then the other elements. -/
  | cons {state next state' : σ} {v : List Char} {vs : List (List Char)} (hv : BeginsValue v)
    (h : ∀ rest, read state (v ++ rest) = .ok (next, rest)) (hrest : Gathers read next vs state') :
    Gathers read state (v :: vs) state'

variable {vs : List (List Char)}

/-- Elements that follow another one. -/
lemma Gathers.elements_comma {read : σ → Reader σ} (h : Gathers read state vs state')
    (rest : List Char) :
    Elements read false state (vs.flatMap (',' :: ·) ++ ']' :: rest) state' (']' :: rest) := by
  induction h with
  | nil state => exact .done (nextElement_close false rest)
  | cons hv h _ ih =>
    rw [List.flatMap_cons, List.cons_append, List.cons_append, List.append_assoc]
    refine .turn (hv.nextElement_comma_eq _) (h _) ?_ ih
    simp only [List.length_cons, List.length_append]
    omega

/-- A written list is run through to its closing bracket. -/
lemma Gathers.elements_eq {read : σ → Reader σ} (h : Gathers read state vs state')
    (rest : List Char) :
    elements read state (writeCommas vs ++ ']' :: rest) = .ok (state', ']' :: rest) := by
  refine Elements.elements_eq ?_
  cases h with
  | nil => exact .done (nextElement_close true rest)
  | @cons _ _ _ v vs hv h hrest =>
    rw [writeCommas_cons, List.append_assoc]
    refine .turn (hv.nextElement_eq _) (h _) ?_ (hrest.elements_comma rest)
    obtain ⟨c, w, rfl, -⟩ := hv
    simp only [List.length_cons, List.length_append]
    omega

end Glossary.Json
