import Glossary.Alias
import Glossary.Layer.Graft

/-!
# The lexicon

A lexicon knows, for every object and language, which localized names stand for which
canonical names.  It is a tree of layers together with a table of language aliases, which every
language code passes through once before it becomes part of a key.

Writing goes to the object's own layer; reading falls back along its delegation chain.  What
counts as ended, for the layers that are removed on the way, is given to each operation.

The lexicon is the registry itself, `TranslationRegistry`: `start` is `new`, `canonical` is
`lang_remap`, `ensure` is `ensure_store`, `add` is `add_translation`, `remove` is `del_translation`,
and `find` is `get_translation` or `get_reverse_translation`, by its direction.
-/

namespace Glossary

/-- The names of all objects in all languages. -/
structure Lexicon where
  /-- The layers of the objects. -/
  tree : LayerTree
  /-- The aliases of language codes. -/
  aliases : AliasTable
deriving DecidableEq

namespace Lexicon

/-- A lexicon in which only the root object has a layer. -/
def start (root : ObjectId) (aliases : AliasTable) : Outcome Lexicon Unit :=
  ⟨⟨.start root, aliases⟩, (), [.started root aliases.size]⟩

variable (x : Lexicon) (ended : Lease → Bool)

/-- The code that entries of a language are kept under. -/
def canonical (language : String) : String := x.aliases.canonical language

/-- Gives an object a layer. -/
def ensure (c : Chain) : Outcome Lexicon LayerId :=
  let o := x.tree.ensure ended c
  ⟨{ x with tree := o.state }, o.result, o.events⟩

/-- Pairs a localized name of an object with a canonical one, in the layer that was ensured for
the object. -/
def addAt (o : Outcome LayerTree LayerId) (c : Chain) (language source target : String) :
    Outcome Lexicon String :=
  let language := x.canonical language
  let p := (o.state.entriesOf o.result).pair language source target
  ⟨{ x with tree := o.state.setEntries o.result p.entries }, target,
    o.events ++ (p.evicted.map (Event.displaced c.self.id language · target)).toList ++
      [.paired c.self.id language source target]⟩

/-- Pairs a localized name of an object with a canonical one, and gives the latter.  Earlier
pairs with either name give way. -/
def add (c : Chain) (language source target : String) : Outcome Lexicon String :=
  x.addAt (x.tree.ensure ended c) c language source target

/-- Removes the pair of a localized name from the layer that was ensured for an object. -/
def removeAt (o : Outcome LayerTree LayerId) (c : Chain) (language source : String) :
    Outcome Lexicon (Option String) :=
  let language := x.canonical language
  let e := o.state.entriesOf o.result
  match e.get? (.forward language source) with
  | none => ⟨{ x with tree := o.state }, none, o.events⟩
  | some target =>
    ⟨{ x with tree := o.state.setEntries o.result (e.unpair language source target) },
      some target, o.events ++ [.unpaired c.self.id language source target]⟩

/-- Removes the pair of a localized name from the object's own layer, and gives the canonical
name it had there. -/
def remove (c : Chain) (language source : String) : Outcome Lexicon (Option String) :=
  x.removeAt (x.tree.ensure ended c) c language source

/-- What a name stands for, in one of the two directions, seen from the layer that was ensured
for an object. -/
def findAt (o : Outcome LayerTree LayerId) (d : Direction) (language name : String) :
    Outcome Lexicon (Option String) :=
  let k : Key := ⟨d, x.canonical language, name⟩
  let s := o.state.resolve? o.result k
  ⟨{ x with tree := o.state }, s.map (·.value),
    o.events ++ LayerTree.resolveEvents o.result k s⟩

/-- What a name of an object stands for, in one of the two directions.  The object receives a
layer if it has none. -/
def find (d : Direction) (c : Chain) (language name : String) :
    Outcome Lexicon (Option String) :=
  x.findAt (x.tree.ensure ended c) d language name

end Lexicon

end Glossary
