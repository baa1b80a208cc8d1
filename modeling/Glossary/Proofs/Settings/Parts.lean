import Glossary.Proofs.Json.Layout
import Glossary.Proofs.Settings.Steady
import Mathlib.Data.List.Forall2

/-!
# Alias tables and entries in a document

The two parts of settings, a table of aliases and a list of standard entries, may be laid out in many
ways.  The rows of a table come in their order, since a later row replaces an earlier one with the same
alias.  The fields of an entry may come in any order, and members that nobody asks for may come between
them, with values of any kind.  What is read depends on none of that.

A field may come only once, though, and all four have to be there.  Whether the loop over the members
keeps to that is seen from its state: it holds what it has read so far, so what it holds together with
what is still to come tells how often each field occurs.
-/

namespace Glossary

open Json

variable {v w a b rest : List Char}

/-! ## Written tables and entries -/

/-- An object with a member for each row, in the order of the rows. -/
def AliasTable.Written (rows : List (String × String)) (w : List Char) : Prop :=
  ∃ ms, ObjectOf Quoted ms w ∧ List.Forall₂ (fun r m => m.1 = r.1 ∧ Quoted r.2 m.2) rows ms

namespace StandardEntry

/-- Members that make up an entry: each field occurs once, with its value, and the others are values of
any kind. -/
structure MadeUp (e : StandardEntry) (ms : List (String × List Char)) : Prop where
  /-- Each field occurs once. -/
  once : ∀ f : Field, (names ms).count f.name = 1
  /-- A field has its value. -/
  fields : ∀ m ∈ ms, ∀ f : Field, m.1 = f.name → Quoted (e.get f) m.2
  /-- Other members have some value. -/
  others : ∀ m ∈ ms, (∀ f : Field, m.1 ≠ f.name) → Value m.2

/-- An object that makes up an entry. -/
def Written (e : StandardEntry) (w : List Char) : Prop := ∃ ms, ObjectOf Quoted ms w ∧ e.MadeUp ms

/-- A list of objects that make up entries. -/
def AllWritten (entries : List StandardEntry) (w : List Char) : Prop :=
  ∃ vs, ListOf vs w ∧ List.Forall₂ Written entries vs

/-- An object of which some field is missing or occurs more than once. -/
def Misfit (v : List Char) : Prop :=
  ∃ ms, ObjectOf Quoted ms v ∧ (∀ m ∈ ms, Value m.2) ∧ ∃ f : Field, (names ms).count f.name ≠ 1

/-- A list of values one of which is an object with a field missing or too many. -/
def HasMisfit (w : List Char) : Prop :=
  ∃ vs, ListOf vs w ∧ (∀ v ∈ vs, Value v) ∧ ∃ v ∈ vs, Misfit v

end StandardEntry

/-! ## Alias tables -/

namespace AliasTable

lemma readMember_eq (t : AliasTable) (name : String) (ha : Blanks a) (s : List Char) :
    readMember t name (a ++ ':' :: s) = do
      let (code, s) ← text s
      return (t.insert name code, s) := by
  rw [readMember, ha.colon_append]
  rfl

lemma along_rows {rows : List (String × String)} {ms : List (String × List Char)} (t : AliasTable)
    (h : List.Forall₂ (fun r m => m.1 = r.1 ∧ Quoted r.2 m.2) rows ms) :
    Along (TakesMember readMember) t ms (rows.foldl (fun t r => t.insert r.1 r.2) t) := by
  induction h generalizing t with
  | nil => exact .nil t
  | @cons r m rows ms hrow _ ih =>
    obtain ⟨hname, hcode⟩ := hrow
    refine .cons ?_ (ih (t.insert r.1 r.2))
    intro a b rest ha hb _
    rw [readMember_eq t m.1 ha, hcode.text_eq hb, hname]
    rfl

/-- Rows are read one after another into an empty table. -/
lemma Written.read_eq {rows : List (String × String)} (h : Written rows w) (hb : Blanks b)
    (rest : List Char) : read (b ++ (w ++ rest)) = .ok (ofRows rows, rest) := by
  obtain ⟨ms, ⟨inner, hitems, rfl⟩, hrows⟩ := h
  rw [enclosed_append, read, hb.skipBlanks_append_cons rfl]
  change (members readMember empty _ >>= _) = _
  rw [(along_rows empty hrows).members_eq hitems]
  rfl

/-- Where a table is asked for, a value is not read beyond its end. -/
lemma yields_read (h : Value v) (hb : Blanks b) (rest : List Char) :
    Yields (fun _ => True) rest (read (b ++ (v ++ rest))) := by
  obtain ⟨c, w, hv, hkind⟩ := h.exists_kind
  by_cases hopen : c = '{'
  · obtain ⟨ms, ⟨inner, hitems, rfl⟩, hms⟩ := hkind.object hopen
    rw [enclosed_append, read, hb.skipBlanks_append_cons rfl]
    change Yields _ _ (members readMember empty _ >>= _)
    have hmembers : Yields (Along (fun _ _ _ => True) empty ms) ('}' :: rest)
        (members readMember empty (inner ++ '}' :: rest)) := by
      refine hitems.yields_members naming_any ?_
      intro m hm t name a b rest _ ha hb _
      rw [readMember_eq t name ha]
      exact ((hms m hm).yields_text hb rest).bind fun code _ => yields_ok trivial
    exact hmembers.bind fun t _ => yields_ok trivial
  · rw [hv, List.cons_append, read, hb.skipBlanks_append_cons hkind.not_blank]
    simp only [if_neg hopen]
    exact yields_error _

end AliasTable

/-! ## Fields of an entry -/

lemma Field.name_of_ofName? {name : String} {f : Field} (h : Field.ofName? name = some f) :
    f.name = name := by
  simpa using List.find?_some h

lemma Field.ofName?_eq_none_iff {name : String} :
    Field.ofName? name = none ↔ ∀ f : Field, name ≠ f.name := by
  constructor
  · rintro h f rfl
    rw [Field.ofName?_name] at h
    cases h
  · intro h
    cases hf : Field.ofName? name with
    | none => rfl
    | some f => exact absurd (Field.name_of_ofName? hf).symm (h f)

namespace StandardEntry

/-- How often a field was read so far. -/
def held (fields : Fields) (f : Field) : Nat := (fields.lookup f).isSome.toNat

@[simp] lemma held_nil (f : Field) : held [] f = 0 := rfl

@[simp] lemma held_cons (f g : Field) (value : String) (fields : Fields) :
    held ((f, value) :: fields) g = if g = f then 1 else held fields g := by
  rw [held, lookup_cons_eq_ite]
  split <;> rfl

lemma held_eq_zero_iff {fields : Fields} {f : Field} : held fields f = 0 ↔ fields.lookup f = none := by
  rw [held]
  cases fields.lookup f <;> simp

lemma readMember_other {fields : Fields} {name : String} (hname : Field.ofName? name = none)
    (ha : Blanks a) (s : List Char) :
    readMember fields name (a ++ ':' :: s) = (do return (fields, ← skipValue s)) := by
  simp only [readMember, hname, ha.colon_append]
  rfl

lemma readMember_field {fields : Fields} {f : Field} (hfield : fields.lookup f = none) (ha : Blanks a)
    (s : List Char) :
    readMember fields f.name (a ++ ':' :: s) = do
      let (value, s) ← text s
      return ((f, value) :: fields, s) := by
  simp only [readMember, f.ofName?_name, hfield, ha.colon_append]
  rfl

/-- What is still to come completes what was read: each field was read or comes once. -/
structure Completes (e : StandardEntry) (fields : Fields) (ms : List (String × List Char)) : Prop where
  /-- Each field was read or comes once. -/
  once : ∀ f : Field, held fields f + (names ms).count f.name = 1
  /-- What was read is right. -/
  right : ∀ f value, fields.lookup f = some value → value = e.get f
  /-- A field that comes has its value. -/
  fields : ∀ m ∈ ms, ∀ f : Field, m.1 = f.name → Quoted (e.get f) m.2
  /-- Other members have some value. -/
  others : ∀ m ∈ ms, (∀ f : Field, m.1 ≠ f.name) → Value m.2

section Completes

variable {e : StandardEntry} {fields : Fields} {m : String × List Char} {ms : List (String × List Char)}

lemma Completes.skip (h : e.Completes fields (m :: ms)) (hm : ∀ f : Field, m.1 ≠ f.name) :
    e.Completes fields ms where
  once f := by
    have := h.once f
    rwa [count_names_cons, if_neg (hm f)] at this
  right := h.right
  fields m hm := h.fields m (List.mem_cons_of_mem _ hm)
  others m hm := h.others m (List.mem_cons_of_mem _ hm)

lemma Completes.not_held (h : e.Completes fields (m :: ms)) {f : Field} (hm : m.1 = f.name) :
    held fields f = 0 := by
  have := h.once f
  rw [count_names_cons, if_pos hm] at this
  omega

/-- A field that comes is read and does not come again. -/
lemma Completes.take (h : e.Completes fields (m :: ms)) {f : Field} (hm : m.1 = f.name) :
    e.Completes ((f, e.get f) :: fields) ms where
  once g := by
    have hg := h.once g
    rw [count_names_cons, hm] at hg
    rw [held_cons]
    by_cases hgf : g = f
    · subst hgf
      rw [if_pos rfl, h.not_held hm] at hg
      rw [if_pos rfl]
      omega
    · rw [if_neg fun heq => hgf (Field.name_injective heq).symm] at hg
      rw [if_neg hgf]
      omega
  right g value hg := by
    rw [lookup_cons_eq_ite] at hg
    split at hg
    · next hgf =>
      cases hg
      rw [hgf]
    · exact h.right g value hg
  fields m hm := h.fields m (List.mem_cons_of_mem _ hm)
  others m hm := h.others m (List.mem_cons_of_mem _ hm)

lemma Completes.along (h : e.Completes fields ms) :
    ∃ fields', Along (TakesMember readMember) fields ms fields' ∧
      ∀ f, fields'.lookup f = some (e.get f) := by
  induction ms generalizing fields with
  | nil =>
    refine ⟨fields, .nil fields, fun f => ?_⟩
    have honce := h.once f
    cases hf : fields.lookup f with
    | none => simp [held_eq_zero_iff.2 hf, names] at honce
    | some value => rw [h.right f value hf]
  | cons m ms ih =>
    cases hname : Field.ofName? m.1 with
    | none =>
      have hne := Field.ofName?_eq_none_iff.1 hname
      obtain ⟨fields', halong, hread⟩ := ih (h.skip hne)
      refine ⟨fields', .cons ?_ halong, hread⟩
      intro a b rest ha hb hrest
      rw [readMember_other hname ha, (h.others m List.mem_cons_self hne).skipValue_eq hb hrest]
      rfl
    | some f =>
      have hm : m.1 = f.name := (Field.name_of_ofName? hname).symm
      obtain ⟨fields', halong, hread⟩ := ih (h.take hm)
      refine ⟨fields', .cons ?_ halong, hread⟩
      intro a b rest ha hb _
      rw [hm, readMember_field (held_eq_zero_iff.1 (h.not_held hm)) ha,
        (h.fields m List.mem_cons_self f hm).text_eq hb]
      rfl

end Completes

lemma missing?_eq_none_iff {fields : Fields} : missing? fields = none ↔ ∀ f, held fields f = 1 := by
  rw [missing?, List.find?_eq_none]
  constructor
  · intro h f
    have := h f f.mem_all
    rw [held]
    cases hf : fields.lookup f <;> simp_all
  · intro h f _
    have := h f
    rw [held] at this
    cases hf : fields.lookup f <;> simp_all

/-- An entry is read whatever the order of its fields and whatever else there is. -/
lemma Written.read_eq {e : StandardEntry} (h : e.Written w) (rest : List Char) :
    read (w ++ rest) = .ok (e, rest) := by
  obtain ⟨ms, ⟨inner, hitems, rfl⟩, hmade⟩ := h
  have hcompletes : e.Completes [] ms :=
    ⟨fun f => by simpa using hmade.once f, by simp, hmade.fields, hmade.others⟩
  obtain ⟨fields, halong, hread⟩ := hcompletes.along
  have hnone : missing? fields = none := by
    rw [missing?_eq_none_iff]
    intro f
    rw [held, hread f]
    rfl
  have hentry : ofRead fields = e := by
    simp only [ofRead, hread, Option.getD_some, ofFields_get]
  rw [enclosed_append]
  change (members readMember [] _ >>= _) = _
  rw [halong.members_eq hitems]
  simp only [bind, Except.bind, hnone, hentry]
  rfl

/-! ## Entries that do not fit -/

/-- What is held after a member: the field that it names was not held before and is held now. -/
def Counts (fields : Fields) (name : String) (fields' : Fields) : Prop :=
  ∀ f : Field, held fields' f = held fields f + if name = f.name then 1 else 0

/-- A member with any value is not read beyond its end, and a field is not read twice. -/
lemma yields_readMember {fields : Fields} {name : String} (h : Value v) (ha : Blanks a) (hb : Blanks b)
    (hrest : Apart rest) :
    Yields (Counts fields name) rest (readMember fields name (a ++ ':' :: (b ++ (v ++ rest)))) := by
  cases hname : Field.ofName? name with
  | none =>
    rw [readMember_other hname ha, h.skipValue_eq hb hrest]
    refine yields_ok fun f => ?_
    rw [if_neg (Field.ofName?_eq_none_iff.1 hname f), Nat.add_zero]
  | some f =>
    obtain rfl := Field.name_of_ofName? hname
    cases hfield : fields.lookup f with
    | some value =>
      simp only [readMember, hname, hfield, Option.isSome_some, if_true]
      exact yields_error _
    | none =>
      rw [readMember_field hfield ha]
      refine (h.yields_text hb rest).bind fun value _ => yields_ok fun g => ?_
      rw [held_cons]
      by_cases hgf : g = f
      · subst hgf
        rw [if_pos rfl, if_pos rfl, held_eq_zero_iff.2 hfield]
      · rw [if_neg hgf, if_neg fun heq => hgf (Field.name_injective heq).symm, Nat.add_zero]

/-- The closing brace of an entry is accepted only if no field is missing. -/
lemma yields_readObject {P : Fields → Prop} {s : List Char}
    (h : Yields P ('}' :: rest) (members readMember [] s)) :
    Yields (fun _ => ∃ fields, P fields ∧ ∀ f, held fields f = 1) rest (readObject s) := by
  refine h.bind fun fields hfields => ?_
  dsimp only
  cases hmissing : missing? fields with
  | some f => exact yields_error _
  | none => exact yields_ok ⟨fields, hfields, missing?_eq_none_iff.1 hmissing⟩

/-- An object that is read as an entry has each field once. -/
lemma Misfit.yields_read (h : Misfit v) (rest : List Char) :
    Yields (fun _ => False) rest (read (v ++ rest)) := by
  obtain ⟨ms, ⟨inner, hitems, rfl⟩, hvalues, f, hf⟩ := h
  rw [enclosed_append]
  change Yields _ _ (readObject _)
  have hmembers : Yields (Along (fun fields m fields' => Counts fields m.1 fields') [] ms)
      ('}' :: rest) (members readMember [] (inner ++ '}' :: rest)) := by
    refine hitems.yields_members naming_quoted ?_
    rintro m hm fields _ a b rest rfl ha hb hrest
    exact yields_readMember (hvalues m hm) ha hb hrest
  refine (yields_readObject hmembers).imp ?_
  rintro _ ⟨fields, halong, hall⟩
  -- all fields are held at the end and none was at the start, so each of them came once
  have hcount := halong.count_eq (held · f) fun h => h f
  rw [hall f, held_nil, Nat.zero_add] at hcount
  exact hf hcount.symm

/-- The fields of an entry that is written as a list are read up to some element. -/
lemma items_of_readFields {fs : List Field} {fields fields' : Fields} {vs : List (List Char)}
    {s : List Char} (hitems : Items Eq fields.isEmpty vs w) (hvs : ∀ v ∈ vs, Value v)
    (h : readFields fs fields (w ++ ']' :: rest) = .ok (fields', s)) :
    ∃ first vs' w', Items Eq first vs' w' ∧ (∀ v ∈ vs', Value v) ∧ s = w' ++ ']' :: rest := by
  induction fs generalizing fields vs w with
  | nil =>
    cases h
    exact ⟨_, vs, w, hitems, hvs, rfl⟩
  | cons f fs ih =>
    cases vs with
    | nil =>
      rw [readFields, hitems.nextElement_nil rest] at h
      cases h
    | cons v vs =>
      have hv := hvs v List.mem_cons_self
      obtain ⟨w', hitems, -, hnext⟩ := hitems.nextElement_cons hv.beginsValue rest
      rw [readFields, hnext] at h
      have htext := hv.yields_text (b := []) (by decide) (w' ++ ']' :: rest)
      cases ht : text (v ++ (w' ++ ']' :: rest)) with
      | error fault =>
        simp only [bind, Except.bind, ht] at h
        cases h
      | ok p =>
        obtain ⟨value, t⟩ := p
        obtain ⟨rfl, -⟩ := htext value t ht
        simp only [bind, Except.bind, ht] at h
        have hmore : Items Eq ((f, value) :: fields).isEmpty vs w' := hitems
        exact ih hmore (fun v hv => hvs v (List.mem_cons_of_mem _ hv)) h

/-- The closing bracket of a list is accepted only where no element is left. -/
lemma eq_of_endOfList {first : Bool} {vs : List (List Char)} {s : List Char}
    (hitems : Items Eq first vs w) (hvs : ∀ v ∈ vs, Value v)
    (h : endOfList (w ++ ']' :: rest) = .ok s) : s = rest := by
  cases hitems with
  | nil hb =>
    rw [endOfList, hb.skipBlanks_append_cons rfl] at h
    cases h
    rfl
  | @first v vs a _ w' ha hx hxs =>
    subst hx
    obtain ⟨c, t, rfl, hblank, hclose⟩ := (hvs v List.mem_cons_self).beginsValue
    simp only [List.append_assoc, List.cons_append] at h
    rw [endOfList, ha.skipBlanks_append_cons hblank] at h
    simp only [if_neg hclose] at h
    split at h <;> cases h
  | next hb _ _ _ =>
    simp only [List.append_assoc, List.cons_append] at h
    rw [endOfList, hb.skipBlanks_append_cons rfl] at h
    cases h

lemma yields_readList {vs : List (List Char)} (hitems : Items Eq true vs w) (hvs : ∀ v ∈ vs, Value v)
    (rest : List Char) : Yields (fun _ => True) rest (readList (w ++ ']' :: rest)) := by
  intro e s hread
  cases hfields : readFields Field.all [] (w ++ ']' :: rest) with
  | error fault =>
    simp only [readList, bind, Except.bind, hfields] at hread
    cases hread
  | ok p =>
    have hstart : Items Eq ([] : Fields).isEmpty vs w := hitems
    obtain ⟨first, vs', w', hitems', hvs', hleft⟩ := items_of_readFields hstart hvs hfields
    cases hend : endOfList p.2 with
    | error fault =>
      simp only [readList, bind, Except.bind, hfields, hend] at hread
      cases hread
    | ok t =>
      simp only [readList, bind, Except.bind, hfields, hend] at hread
      cases hread
      rw [hleft] at hend
      exact ⟨eq_of_endOfList hitems' hvs' hend, trivial⟩

/-- Where an entry is asked for, a value is not read beyond its end. -/
lemma yields_read (h : Value v) (rest : List Char) :
    Yields (fun _ => True) rest (read (v ++ rest)) := by
  obtain ⟨c, w, hv, hkind⟩ := h.exists_kind
  by_cases hbrace : c = '{'
  · obtain ⟨ms, ⟨inner, hitems, rfl⟩, hms⟩ := hkind.object hbrace
    rw [enclosed_append]
    change Yields _ _ (readObject _)
    have hmembers : Yields (Along (fun _ _ _ => True) [] ms) ('}' :: rest)
        (members readMember [] (inner ++ '}' :: rest)) := by
      refine hitems.yields_members naming_any ?_
      intro m hm fields name a b rest _ ha hb hrest
      exact (yields_readMember (hms m hm) ha hb hrest).imp fun _ _ => trivial
    exact (yields_readObject hmembers).imp fun _ _ => trivial
  by_cases hbracket : c = '['
  · obtain ⟨vs, ⟨inner, hitems, rfl⟩, hvs⟩ := hkind.list hbracket
    rw [enclosed_append]
    exact yields_readList hitems hvs rest
  · rw [hv, List.cons_append, read, skipBlanks_of_not_blank hkind.not_blank]
    simp only [if_neg hbrace, if_neg hbracket]
    exact yields_error _

/-! ## Lists of entries -/

lemma along_written {es : List StandardEntry} {vs : List (List Char)} (entries : List StandardEntry)
    (h : List.Forall₂ Written es vs) : Along (TakesElement readElement) entries vs (entries ++ es) := by
  induction h generalizing entries with
  | nil =>
    rw [List.append_nil]
    exact .nil entries
  | @cons e v es vs he _ ih =>
    rw [List.append_cons]
    refine .cons ⟨?_, fun _ => ?_⟩ (ih (entries ++ [e]))
    · obtain ⟨ms, ⟨inner, -, rfl⟩, -⟩ := he
      exact ⟨'{', _, rfl, rfl, by decide⟩
    · rw [readElement, he.read_eq]
      rfl

/-- Entries are read one after another. -/
lemma AllWritten.readAll_eq {entries : List StandardEntry} (h : AllWritten entries w) (hb : Blanks b)
    (rest : List Char) : readAll (b ++ (w ++ rest)) = .ok (entries, rest) := by
  obtain ⟨vs, ⟨inner, hitems, rfl⟩, hentries⟩ := h
  rw [enclosed_append, readAll, hb.skipBlanks_append_cons rfl]
  change (elements readElement [] _ >>= _) = _
  rw [(along_written [] hentries).elements_eq hitems]
  rfl

/-- A list of values is read as entries only if each of them fits. -/
lemma yields_readAll_list {vs : List (List Char)} (h : ListOf vs w) (hvs : ∀ v ∈ vs, Value v)
    (hb : Blanks b) (rest : List Char) :
    Yields (fun _ => ∀ v ∈ vs, ¬ Misfit v) rest (readAll (b ++ (w ++ rest))) := by
  obtain ⟨inner, hitems, rfl⟩ := h
  rw [enclosed_append, readAll, hb.skipBlanks_append_cons rfl]
  change Yields _ _ (elements readElement [] _ >>= _)
  have helements : Yields (Along (fun _ v _ => ¬ Misfit v) [] vs) (']' :: rest)
      (elements readElement [] (inner ++ ']' :: rest)) := by
    refine hitems.yields_elements (fun v hv => (hvs v hv).beginsValue) ?_
    intro v hv entries rest _
    have hfits : Yields (fun _ => ¬ Misfit v) rest (read (v ++ rest)) := by
      intro e s hread
      exact ⟨(yields_read (hvs v hv) rest e s hread).1, fun h => (h.yields_read rest e s hread).2⟩
    exact hfits.bind fun e he => yields_ok he
  exact helements.bind fun entries halong => yields_ok (halong.forall_mem fun h => h)

/-- Where a list of entries is asked for, a value is not read beyond its end, and only if each entry
fits. -/
lemma yields_readAll (h : Value v) (hb : Blanks b) (rest : List Char) :
    Yields (fun _ => ¬ HasMisfit v) rest (readAll (b ++ (v ++ rest))) := by
  have hstops : Yields (fun _ => True) rest (readAll (b ++ (v ++ rest))) := by
    obtain ⟨c, w, hv, hkind⟩ := h.exists_kind
    by_cases hopen : c = '['
    · obtain ⟨vs, hlist, hvs⟩ := hkind.list hopen
      exact (yields_readAll_list hlist hvs hb rest).imp fun _ _ => trivial
    · rw [hv, List.cons_append, readAll, hb.skipBlanks_append_cons hkind.not_blank]
      simp only [if_neg hopen]
      exact yields_error _
  intro entries s hread
  refine ⟨(hstops entries s hread).1, ?_⟩
  -- the list with the misfit need not be the one found above, but the same run goes through it
  rintro ⟨vs, hlist, hvs, u, hu, hmisfit⟩
  exact (yields_readAll_list hlist hvs hb rest entries s hread).2 u hu hmisfit

end StandardEntry

end Glossary
