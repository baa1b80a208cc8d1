import Glossary.Settings.Basic

/-!
# Defects of settings

Settings are usable when no text in them is empty and when following an alias once is enough:
no alias is sent to an alias, itself included.  `Settings.defects` lists everything that
stands in the way, row by row and then entry by entry, and the settings are usable exactly
when that list is empty.

`check` is `validate`.  A defect is a `ValidationError`, of which `path` is the field path, and
`report` is how a list of them is shown.
-/

namespace Glossary

/-- One thing that makes settings unusable. -/
inductive Defect where
  /-- An alias is the empty text. -/
  | emptyAlias
  /-- An alias is sent to the empty text. -/
  | emptyCode (variant : String)
  /-- An alias is sent to itself. -/
  | selfAlias (variant : String)
  /-- An alias is sent to another alias. -/
  | chainedAlias (variant code : String)
  /-- A field of the standard entry at an index is empty. -/
  | emptyField (index : Nat) (field : Field)
deriving DecidableEq

namespace Defect

/-- Where in a document the defect is. -/
def path : Defect → String
  | emptyAlias => "languageRemap"
  | emptyCode variant => "languageRemap." ++ variant
  | selfAlias variant => "languageRemap." ++ variant
  | chainedAlias variant _ => "languageRemap." ++ variant
  | emptyField index field => "standardTranslations[" ++ toString index ++ "]." ++ field.name

/-- What is wrong. -/
def message : Defect → String
  | emptyAlias => "Alias cannot be empty. Example: \x7b\"en_US\": \"en\"\x7d"
  | emptyCode _ => "The canonical language code cannot be empty"
  | selfAlias _ => "An alias cannot map to itself. Remove this entry"
  | chainedAlias variant code =>
    "'" ++ code ++ "' is itself an alias. Map '" ++ variant ++ "' directly to the canonical code"
  | emptyField _ _ => "The value cannot be empty"

/-- The defect on a line of its own. -/
def text (d : Defect) : String := "Configuration error in '" ++ d.path ++ "': " ++ d.message

/-- A list of defects as a numbered list. -/
def report (ds : List Defect) : String :=
  "Configuration validation failed:\n" ++ "\n".intercalate
    (ds.zipIdx.map fun (d, i) => "  " ++ toString (i + 1) ++ ". " ++ d.path ++ " - " ++ d.message)

end Defect

namespace AliasTable

/-- The defects of one row of a table. -/
def rowDefects (t : AliasTable) (variant code : String) : List Defect :=
  (if variant.isEmpty then [.emptyAlias] else []) ++
  (if code.isEmpty then [.emptyCode variant]
   else if code = variant then [.selfAlias variant]
   else if t.contains code then [.chainedAlias variant code]
   else [])

/-- The defects of a table, in the order of its rows. -/
def defects (t : AliasTable) : List Defect := t.rows.flatMap fun r => t.rowDefects r.1 r.2

end AliasTable

namespace StandardEntry

/-- The defects of the entry at an index. -/
def defects (e : StandardEntry) (index : Nat) : List Defect :=
  (Field.all.filter fun f => (e.get f).isEmpty).map (.emptyField index)

end StandardEntry

namespace Settings

/-- Everything that makes the settings unusable. -/
def defects (s : Settings) : List Defect :=
  s.aliases.defects ++ s.standard.zipIdx.flatMap fun (e, i) => e.defects i

/-- The settings themselves if they have no defect, else the defects. -/
def check (s : Settings) : Except (List Defect) Settings :=
  if s.defects.isEmpty then .ok s else .error s.defects

end Settings

end Glossary
