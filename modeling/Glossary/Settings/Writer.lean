import Glossary.Json.Writer
import Glossary.Settings.Basic

/-!
# Writing settings

The compact document of settings, `RuntimeSettings` as they are serialized: no blanks, the aliases
in their order, and the fields of a standard entry in the order of `Field.all`.
-/

namespace Glossary

open Json

/-- The table as an object with a member for each row. -/
def AliasTable.write (t : AliasTable) : List Char :=
  writeObject (t.rows.map fun r => writeMember r.1 (quote r.2))

/-- The entry as an object with a member for each field. -/
def StandardEntry.write (e : StandardEntry) : List Char :=
  writeObject (Field.all.map fun f => writeMember f.name (quote (e.get f)))

namespace Settings

/-- The member name of the alias table. -/
def aliasesName : String := "languageRemap"

/-- The member name of the list of standard entries. -/
def standardName : String := "standardTranslations"

/-- The characters of the compact document. -/
def write (s : Settings) : List Char :=
  writeObject [writeMember aliasesName s.aliases.write,
    writeMember standardName (writeList (s.standard.map StandardEntry.write))]

/-- The compact document. -/
def render (s : Settings) : String := String.ofList s.write

end Settings

end Glossary
