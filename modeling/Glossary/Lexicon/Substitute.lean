import Glossary.Lexicon.Basic

/-!
# Substituting names

At the moment a name is used, it is replaced by what it stands for, and used as it is if it
stands for nothing.  This only reads: no object receives a layer and none is removed.  By its
direction, `substitute` is `lookup_name` or `reverse_lookup_name`.
-/

namespace Glossary

/-- What a name is used on. -/
inductive Receiver where
  /-- Nothing at all. -/
  | absent
  /-- Something that cannot have layers. -/
  | foreign
  /-- An object that can have layers. -/
  | carrier (c : Chain)

namespace Lexicon

/-- The name to use in place of another one, and what is reported. -/
def substitute (x : Lexicon) (d : Direction) (r : Receiver) (language name : String) :
    String × List Event :=
  let k : Key := ⟨d, x.canonical language, name⟩
  match r with
  | .absent => (name, [])
  | .foreign => (name, [.foreign k])
  | .carrier c =>
    let i := x.tree.nearest c
    let s := x.tree.resolve? i k
    let value := match s with
      | some s => if s.value.isEmpty then name else s.value
      | none => name
    (value, LayerTree.resolveEvents i k s)

end Lexicon

end Glossary
