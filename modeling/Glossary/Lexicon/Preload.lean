import Glossary.Lexicon.Basic
import Glossary.Settings.Defect

/-!
# Starting from settings

Settings without defects give a lexicon with their aliases.  Their standard entries are then
put in place one after another; the object of each is found by its path, and an entry whose
object nobody knows is passed over.

This is how the registry starts up: `ofSettings` is `from_settings`, `preload` is
`install_standard_translations` with its `InstallReport`, and `launch` is `bootstrap`.
-/

namespace Glossary

/-- What came of putting standard entries in place. -/
structure Report where
  /-- How many entries are in place. -/
  installed : Nat
  /-- How many were passed over. -/
  unresolved : Nat
  /-- The paths that were asked for, in order. -/
  asked : List String
deriving DecidableEq

namespace Report

/-- The report before the first entry. -/
def none : Report := ⟨0, 0, []⟩

end Report

namespace Lexicon

/-- Puts standard entries in place, going on from a report. -/
def preloadFrom (x : Lexicon) (ended : Lease → Bool) (find : String → Option Chain)
    (r : Report) : List StandardEntry → Outcome Lexicon Report
  | [] => ⟨x, r, [.preloaded r.installed r.unresolved]⟩
  | e :: rest =>
    let asked := r.asked ++ [e.target]
    match find e.target with
    | none =>
      let o := x.preloadFrom ended find ⟨r.installed, r.unresolved + 1, asked⟩ rest
      { o with events := .unknownTarget e.target :: o.events }
    | some c =>
      let a := x.add ended c e.language e.localized e.canonical
      let o := a.state.preloadFrom ended find ⟨r.installed + 1, r.unresolved, asked⟩ rest
      { o with events := a.events ++ o.events }

/-- Puts standard entries in place. -/
def preload (x : Lexicon) (ended : Lease → Bool) (find : String → Option Chain)
    (entries : List StandardEntry) : Outcome Lexicon Report :=
  x.preloadFrom ended find .none entries

/-- The lexicon of settings, if these have no defects. -/
def ofSettings (root : ObjectId) (s : Settings) :
    Except (List Defect) (Outcome Lexicon Unit) :=
  match s.check with
  | .error ds => .error ds
  | .ok s => .ok (start root s.aliases)

/-- The lexicon of settings with their standard entries in place, if the settings have no
defects. -/
def launch (root : ObjectId) (s : Settings) (ended : Lease → Bool)
    (find : String → Option Chain) : Except (List Defect) (Outcome Lexicon Report) :=
  match ofSettings root s with
  | .error ds => .error ds
  | .ok o =>
    let p := o.state.preload ended find s.standard
    .ok { p with events := o.events ++ p.events }

end Lexicon

end Glossary
