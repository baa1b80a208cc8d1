import Glossary.Alias

/-!
# Settings

What a lexicon starts from: a table of language aliases and a list of standard entries that
are put in place before anything else happens.  These are the `RuntimeSettings` of the registry
and their `StandardTranslation`s.
-/

namespace Glossary

/-- One of the four texts of a standard entry. -/
inductive Field where
  /-- The path of the object that receives the entry. -/
  | target
  /-- The language of the localized name. -/
  | language
  /-- The name as it is written in that language. -/
  | localized
  /-- The name that the object itself uses. -/
  | canonical
deriving DecidableEq

namespace Field

/-- The fields in the order in which they are written, asked for and checked. -/
def all : List Field := [target, language, localized, canonical]

/-- The member name of a field in a document. -/
def name : Field → String
  | target => "target"
  | language => "language"
  | localized => "localized"
  | canonical => "canonical"

/-- The field with a given member name. -/
def ofName? (s : String) : Option Field := all.find? (·.name = s)

theorem ofName?_name (f : Field) : ofName? f.name = some f := by
  cases f <;> decide

theorem name_injective {f g : Field} (h : f.name = g.name) : f = g := by
  have hsome : some f = some g := by rw [← ofName?_name f, h, ofName?_name]
  exact Option.some.inj hsome

end Field

/-- An entry to put in place at the start. -/
structure StandardEntry where
  /-- The path of the object that receives the entry. -/
  target : String
  /-- The language of the localized name. -/
  language : String
  /-- The name as it is written in that language. -/
  localized : String
  /-- The name that the object itself uses. -/
  canonical : String
deriving DecidableEq

namespace StandardEntry

/-- The entry whose fields have the values of a function. -/
def ofFields (value : Field → String) : StandardEntry :=
  ⟨value .target, value .language, value .localized, value .canonical⟩

/-- The value of a field. -/
def get (e : StandardEntry) : Field → String
  | .target => e.target
  | .language => e.language
  | .localized => e.localized
  | .canonical => e.canonical

@[simp] theorem ofFields_get (e : StandardEntry) : ofFields e.get = e := rfl

end StandardEntry

/-- What a lexicon starts from. -/
structure Settings where
  /-- The aliases of language codes. -/
  aliases : AliasTable
  /-- The entries to put in place at the start. -/
  standard : List StandardEntry
deriving DecidableEq

namespace Settings

/-- Settings without aliases and without standard entries. -/
def empty : Settings := ⟨.empty, []⟩

end Settings

end Glossary
