import Glossary.Layer.Listing
import Glossary.Lexicon.Preload
import Glossary.World.Stage

/-!
# Requests and answers

Everything that a session can be asked, and every form that its answer can take.
-/

namespace Glossary

/-- What a session can be asked to do.  Objects are given by name; a name may be left out. -/
inductive Request where
  /-- Make a thing and give it a name. -/
  | make (name : String) (recipe : Recipe)
  /-- Let a hosted thing delegate to something else. -/
  | setParent (object parent : Option String)
  /-- End the lease of a hosted thing. -/
  | expire (object : Option String)
  /-- Give up a name. -/
  | drop (object : Option String)
  /-- Tell whether an object is living. -/
  | alive (object : Option String)
  /-- Tell what is known about something. -/
  | profile (object : Option String)
  /-- Add a pair. -/
  | add (object : Option String) (language source target : String)
  /-- Remove a pair. -/
  | remove (object : Option String) (language source : String)
  /-- Tell what a name stands for. -/
  | find (direction : Direction) (object : Option String) (language name : String)
  /-- Substitute a name at its use.  Only in the forward direction may the object be left
  out. -/
  | substitute (direction : Direction) (object : Option String) (language name : String)
  /-- Tell the code that a language is kept under. -/
  | canonical (language : String)
  /-- Give an object a layer. -/
  | ensure (object : Option String)
  /-- Tell the layer of an object. -/
  | layerOf (object : Option String)
  /-- Tell the nearest layer along the chain of an object. -/
  | nearest (object : Option String)
  /-- Tell what a layer itself says about a key. -/
  | own (layer : LayerId) (key : Key)
  /-- Tell what a layer, or one it falls back to, says about a key. -/
  | resolve (layer : LayerId) (key : Key)
  /-- Put standard entries in place; a path is the name of an object. -/
  | preload (entries : List StandardEntry)
  /-- List all entries of all layers. -/
  | listing
deriving DecidableEq

/-- What a session answers. -/
inductive Answer where
  /-- There is nothing to say. -/
  | nothing
  /-- A text. -/
  | text (s : String)
  /-- A truth value. -/
  | flag (b : Bool)
  /-- A layer. -/
  | layer (i : LayerId)
  /-- What is known about something. -/
  | profile (p : Stage.Profile)
  /-- What came of putting standard entries in place. -/
  | report (r : Report)
  /-- The entries of layers. -/
  | rows (rs : List LayerTree.Row)
deriving DecidableEq

namespace Answer

/-- An answer that may be nothing. -/
def ofOption {α : Type} (f : α → Answer) : Option α → Answer
  | none => nothing
  | some a => f a

end Answer

end Glossary
