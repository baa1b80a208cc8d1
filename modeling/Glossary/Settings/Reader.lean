import Glossary.Event
import Glossary.Json.Reader.Mismatch
import Glossary.Json.Reader.Skip
import Glossary.Settings.Defect
import Glossary.Settings.Writer

/-!
# Reading settings

Settings are read from a document in which both members of the settings may be left out and
all four fields of a standard entry have to be there.  Members with other names are passed
over.  Settings and standard entries may also be written as lists of their members in order.

`ofDocument` is `from_json`, and a refusal is a `ConfigError`: a `ParseError` if the document is
unreadable, and `ValidationErrors` if its settings are defective.
-/

namespace Glossary

open Json

namespace AliasTable

/-- Reads a member of an object of aliases; it replaces an earlier one with the same name. -/
def readMember (t : AliasTable) (name : String) : Reader AliasTable := fun s => do
  let (code, s) ← text (← colon s)
  return (t.insert name code, s)

/-- Reads an object of aliases. -/
def read (s : List Char) : Except Fault (AliasTable × List Char) :=
  match skipBlanks s with
  | [] => .error ⟨.endInValue, [], 1⟩
  | c :: rest =>
    if c = '{' then do
      let (t, s) ← members readMember empty rest
      return (t, s.drop 1)
    else .error (mismatch "a map" (c :: rest))

end AliasTable

namespace StandardEntry

/-- The fields of an entry that were read so far. -/
abbrev Fields := List (Field × String)

/-- What a message calls an entry. -/
def kind : String := "struct StandardTranslation"

/-- The first field that is not there yet. -/
def missing? (fields : Fields) : Option Field := Field.all.find? fun f => (fields.lookup f).isNone

/-- The entry with the fields that were read. -/
def ofRead (fields : Fields) : StandardEntry := ofFields fun f => (fields.lookup f).getD ""

/-- Reads a member of an entry. -/
def readMember (fields : Fields) (name : String) : Reader Fields := fun s =>
  match Field.ofName? name with
  | none => do return (fields, ← skipValue (← colon s))
  | some f =>
    if (fields.lookup f).isSome then .error ⟨.duplicate name, leaveObject s, 0⟩
    else do
      let (value, s) ← text (← colon s)
      return ((f, value) :: fields, s)

/-- Reads an entry that is written as an object, after its opening brace. -/
def readObject (s : List Char) : Except Fault (StandardEntry × List Char) := do
  let (fields, s) ← members readMember [] s
  match missing? fields with
  | some f => .error ⟨.missing f.name, leaveObject s, 0⟩
  | none => return (ofRead fields, s.drop 1)

/-- Reads the given fields of an entry that is written as a list. -/
def readFields : List Field → Fields → Reader Fields
  | [], fields, s => .ok (fields, s)
  | f :: fs, fields, s => do
    match ← nextElement fields.isEmpty s with
    | (false, s) =>
      .error ⟨.short fields.length (kind ++ " with 4 elements"), leaveList s, 0⟩
    | (true, s) =>
      let (value, s) ← text s
      readFields fs ((f, value) :: fields) s

/-- Reads an entry that is written as a list, after its opening bracket. -/
def readList (s : List Char) : Except Fault (StandardEntry × List Char) := do
  let (fields, s) ← readFields Field.all [] s
  return (ofRead fields, ← endOfList s)

/-- Reads an entry. -/
def read (s : List Char) : Except Fault (StandardEntry × List Char) :=
  match skipBlanks s with
  | [] => .error ⟨.endInValue, [], 1⟩
  | c :: rest =>
    if c = '{' then readObject rest
    else if c = '[' then readList rest
    else .error (mismatch kind (c :: rest))

/-- Reads an element of a list of entries. -/
def readElement (entries : List StandardEntry) : Reader (List StandardEntry) := fun s => do
  let (e, s) ← read s
  return (entries ++ [e], s)

/-- Reads a list of entries. -/
def readAll (s : List Char) : Except Fault (List StandardEntry × List Char) :=
  match skipBlanks s with
  | [] => .error ⟨.endInValue, [], 1⟩
  | c :: rest =>
    if c = '[' then do
      let (entries, s) ← elements readElement [] rest
      return (entries, s.drop 1)
    else .error (mismatch "a sequence" (c :: rest))

end StandardEntry

namespace Settings

/-- The parts of settings that were read so far. -/
structure Parts where
  /-- The alias table, once it was read. -/
  aliases : Option AliasTable
  /-- The standard entries, once they were read. -/
  standard : Option (List StandardEntry)

namespace Parts

/-- Nothing was read yet. -/
def none : Parts := ⟨.none, .none⟩

/-- The settings, in which a part that was not read is empty. -/
def settings (p : Parts) : Settings := ⟨p.aliases.getD .empty, p.standard.getD []⟩

end Parts

/-- What a message calls settings. -/
def kind : String := "struct RuntimeSettings"

/-- Reads a member of settings. -/
def readMember (p : Parts) (name : String) : Reader Parts := fun s =>
  if name = aliasesName then
    if p.aliases.isSome then .error ⟨.duplicate name, leaveObject s, 0⟩
    else do
      let (t, s) ← AliasTable.read (← colon s)
      return ({ p with aliases := some t }, s)
  else if name = standardName then
    if p.standard.isSome then .error ⟨.duplicate name, leaveObject s, 0⟩
    else do
      let (es, s) ← StandardEntry.readAll (← colon s)
      return ({ p with standard := some es }, s)
  else do return (p, ← skipValue (← colon s))

/-- Reads settings that are written as an object, after the opening brace. -/
def readObject (s : List Char) : Except Fault (Settings × List Char) := do
  let (p, s) ← members readMember .none s
  return (p.settings, s.drop 1)

/-- Reads settings that are written as a list, after the opening bracket.  Parts at its end may
be left out. -/
def readList (s : List Char) : Except Fault (Settings × List Char) := do
  match ← nextElement true s with
  | (false, s) => return (.empty, ← endOfList s)
  | (true, s) =>
    let (t, s) ← AliasTable.read s
    match ← nextElement false s with
    | (false, s) => return (⟨t, []⟩, ← endOfList s)
    | (true, s) =>
      let (es, s) ← StandardEntry.readAll s
      return (⟨t, es⟩, ← endOfList s)

/-- Reads settings. -/
def read (s : List Char) : Except Fault (Settings × List Char) :=
  match skipBlanks s with
  | [] => .error ⟨.endInValue, [], 1⟩
  | c :: rest =>
    if c = '{' then readObject rest
    else if c = '[' then readList rest
    else .error (mismatch kind (c :: rest))

/-- Reads a whole document. -/
def readDocument (document : String) : Except Fault Settings := do
  let (settings, s) ← read document.toList
  let s := skipBlanks s
  if s.isEmpty then return settings else throw ⟨.extraText, s, 1⟩

/-- Why a document gives no usable settings. -/
inductive Refusal where
  /-- The document cannot be read. -/
  | unreadable (fault : Fault)
  /-- The settings that it holds have defects. -/
  | defective (defects : List Defect)

/-- The usable settings of a document. -/
def ofDocument (document : String) : Except Refusal Settings :=
  match readDocument document with
  | .error fault => .error (.unreadable fault)
  | .ok settings =>
    match settings.check with
    | .error defects => .error (.defective defects)
    | .ok settings => .ok settings

/-- What is reported when settings were read. -/
def readEvents (s : Settings) : List Event := [.settingsRead s.aliases.size s.standard.length]

namespace Refusal

/-- The text of a refusal of a document. -/
def text (document : String) : Refusal → String
  | unreadable fault => "Failed to parse configuration: " ++ fault.text document
  | defective defects => Defect.report defects

end Refusal

end Settings

end Glossary
