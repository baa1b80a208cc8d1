import Glossary.Json.Reader.Text

/-!
# Reading objects and lists

What stands around the members of an object and the elements of a list: blanks, colons, commas
and closing brackets.  `members` and `elements` run through a container and hand each member
or element to a reader; both stop in front of the closing bracket.
-/

namespace Glossary.Json

/-- Whether a character is a blank between the tokens of a document. -/
def isBlank (c : Char) : Bool := c = ' ' || c = '\n' || c = '\t' || c = '\r'

/-- Passes over blanks. -/
def skipBlanks (s : List Char) : List Char := s.dropWhile isBlank

/-- Reads the rest of a word. -/
def word : List Char → List Char → Except Fault (List Char)
  | [], s => .ok s
  | _ :: _, [] => .error ⟨.endInValue, [], 0⟩
  | c :: cs, d :: s => if c = d then word cs s else .error ⟨.badWord, d :: s, 1⟩

/-- Reads the colon after the name of a member. -/
def colon (s : List Char) : Except Fault (List Char) :=
  match skipBlanks s with
  | [] => .error ⟨.endInObject, [], 1⟩
  | c :: rest => if c = ':' then .ok rest else .error ⟨.noColon, c :: rest, 1⟩

/-- Reads the quoted name of a member. -/
def memberName : Reader String
  | [] => .error ⟨.endInValue, [], 1⟩
  | c :: rest => if c = '"' then textBody [] rest else .error ⟨.badName, c :: rest, 1⟩

/-- Reads the name of the next member of an object, or nothing in front of its closing brace.
All members but the first follow a comma. -/
def nextName (first : Bool) (s : List Char) : Except Fault (Option String × List Char) :=
  match skipBlanks s with
  | [] => .error ⟨.endInObject, [], 1⟩
  | c :: rest =>
    if c = '}' then .ok (none, c :: rest)
    else if first then do
      let (name, s) ← memberName (c :: rest)
      return (some name, s)
    else if c = ',' then
      let s := skipBlanks rest
      if s.head? = some '}' then .error ⟨.extraComma, s, 1⟩
      else do
        let (name, s) ← memberName s
        return (some name, s)
    else .error ⟨.noObjectComma, c :: rest, 1⟩

/-- Goes to the next element of a list and tells whether there is one.  All elements but the
first follow a comma. -/
def nextElement (first : Bool) (s : List Char) : Except Fault (Bool × List Char) :=
  match skipBlanks s with
  | [] => .error ⟨.endInList, [], 1⟩
  | c :: rest =>
    if c = ']' then .ok (false, c :: rest)
    else if first then .ok (true, c :: rest)
    else if c = ',' then
      match skipBlanks rest with
      | [] => .error ⟨.endInValue, [], 1⟩
      | d :: rest' =>
        if d = ']' then .error ⟨.extraComma, d :: rest', 1⟩ else .ok (true, d :: rest')
    else .error ⟨.noListComma, c :: rest, 1⟩

/-- How far the end of an object is followed when its content was refused. -/
def leaveObject (s : List Char) : List Char :=
  match skipBlanks s with
  | [] => []
  | c :: rest => if c = '}' then rest else c :: rest

/-- How far the end of a list is followed when its content was refused. -/
def leaveList (s : List Char) : List Char :=
  match skipBlanks s with
  | [] => []
  | c :: rest =>
    if c = ']' then rest
    else if c = ',' then skipBlanks rest
    else c :: rest

/-- Reads the closing bracket of a list. -/
def endOfList (s : List Char) : Except Fault (List Char) :=
  match skipBlanks s with
  | [] => .error ⟨.endInList, [], 1⟩
  | c :: rest =>
    if c = ']' then .ok rest
    else if c = ',' then
      let s := skipBlanks rest
      .error ⟨if s.head? = some ']' then .extraComma else .extraText, s, 1⟩
    else .error ⟨.extraText, c :: rest, 1⟩

variable {σ : Type}

/-- Runs through at most so many members of an object. -/
def membersUpTo (read : σ → String → Reader σ) : Nat → Bool → σ → Reader σ
  | 0, _, _, s => .error ⟨.endInObject, s, 0⟩
  | n + 1, first, state, s => do
    match ← nextName first s with
    | (none, s) => return (state, s)
    | (some name, s) =>
      let (state, s) ← read state name s
      membersUpTo read n false state s

/-- Runs through the members of an object, after its opening brace.  Each member takes at least
one character, so the number of characters bounds their number. -/
def members (read : σ → String → Reader σ) (state : σ) : Reader σ := fun s =>
  membersUpTo read (s.length + 1) true state s

/-- Runs through at most so many elements of a list. -/
def elementsUpTo (read : σ → Reader σ) : Nat → Bool → σ → Reader σ
  | 0, _, _, s => .error ⟨.endInList, s, 0⟩
  | n + 1, first, state, s => do
    match ← nextElement first s with
    | (false, s) => return (state, s)
    | (true, s) =>
      let (state, s) ← read state s
      elementsUpTo read n false state s

/-- Runs through the elements of a list, after its opening bracket.  Each element takes at
least one character, so the number of characters bounds their number. -/
def elements (read : σ → Reader σ) (state : σ) : Reader σ := fun s =>
  elementsUpTo read (s.length + 1) true state s

end Glossary.Json
