import Glossary.Key
import Glossary.Rows

/-!
# The entries of a layer

A layer keeps its entries by key.  Entries are written in pairs: `pair` says that a localized
name and a canonical name belong together, in both directions at once, and makes room by
removing what either name was paired with before; `unpair` removes both directions again.
Within a layer and a language the pairs are therefore one to one.

These are the entries of one store: `pair` is what `add_translation` does to them, and `unpair` is
what `del_translation` does.
-/

namespace Glossary

/-- Values by key. -/
structure Entries where
  /-- The keys with their values. -/
  rows : List (Key × String)
deriving DecidableEq

namespace Entries

/-- No entries. -/
def empty : Entries := ⟨[]⟩

/-- The value of a key. -/
def get? (e : Entries) (k : Key) : Option String := e.rows.lookup k

/-- Removes a key. -/
def erase (e : Entries) (k : Key) : Entries := ⟨e.rows.filter (·.1 ≠ k)⟩

/-- Gives a key a value, in place of the one it had. -/
def insert (e : Entries) (k : Key) (v : String) : Entries := ⟨(k, v) :: (e.erase k).rows⟩

@[simp] theorem get?_empty (k : Key) : empty.get? k = none := rfl

@[simp] theorem get?_erase (e : Entries) (k l : Key) :
    (e.erase k).get? l = if l = k then none else e.get? l :=
  lookup_filter_ne k l e.rows

@[simp] theorem get?_insert (e : Entries) (k l : Key) (v : String) :
    (e.insert k v).get? l = if l = k then some v else e.get? l := by
  rw [get?, insert, lookup_cons_eq_ite]
  by_cases h : l = k
  · simp [h]
  · have := e.get?_erase k l
    simp only [get?] at this
    simp [h, this, get?]

/-- The entries after a pair was added, and the localized name that had to give way. -/
structure Pairing where
  /-- The entries with the pair. -/
  entries : Entries
  /-- The other localized name that the canonical name was paired with before. -/
  evicted : Option String

/-- Removes the reverse half of what a localized name is paired with, unless that is the given
canonical name. -/
def clearSource (e : Entries) (language source target : String) : Entries :=
  match e.get? (.forward language source) with
  | some previous => if previous = target then e else e.erase (.reverse language previous)
  | none => e

/-- The other localized name that a canonical name is paired with. -/
def rival? (e : Entries) (language source target : String) : Option String :=
  (e.get? (.reverse language target)).filter (· ≠ source)

/-- Pairs a localized name with a canonical one. -/
def pair (e : Entries) (language source target : String) : Pairing :=
  let e := e.clearSource language source target
  let evicted := e.rival? language source target
  let e := match evicted with
    | some other => e.erase (.forward language other)
    | none => e
  ⟨(e.insert (.forward language source) target).insert (.reverse language target) source,
    evicted⟩

/-- Removes a pair. -/
def unpair (e : Entries) (language source target : String) : Entries :=
  (e.erase (.forward language source)).erase (.reverse language target)

end Entries

end Glossary
