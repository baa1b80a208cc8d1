import Glossary.Proofs.Settings.Parts
import Mathlib.Data.List.Induction

/-!
# Documents of settings

What is read from a document depends on what it holds and not on its layout.  There may be blanks between
its tokens, a text may be escaped or not, the members may come in any order, each of the two that are
asked for may be left out if there is nothing to say, and members that nobody asks for may come between
them.  What makes a document unreadable is a member too many: neither of the two may come twice, nor may
a field of an entry, of which in turn none may be missing.
-/

namespace Glossary

open Json

variable {v a b rest : List Char}

/-- The last row with an alias counts. -/
lemma AliasTable.get?_ofRows (rows : List (String × String)) (language : String) :
    (AliasTable.ofRows rows).get? language = rows.reverse.lookup language := by
  induction rows using List.reverseRecOn with
  | nil => rfl
  | append_singleton rows r ih =>
    obtain ⟨variant, code⟩ := r
    rw [List.reverse_append, List.reverse_singleton, List.singleton_append, lookup_cons_eq_ite, ← ih,
      ← AliasTable.get?_insert]
    simp only [AliasTable.ofRows, List.foldl_append, List.foldl_cons, List.foldl_nil]

namespace Settings

/-- A member that may be left out: it occurs at most once, and if it does not occur then there is nothing
to write. -/
structure Optional (name : String) (written : List Char → Prop) (nothing : Prop)
    (ms : List (String × List Char)) : Prop where
  /-- It does not occur twice. -/
  once : (names ms).count name ≤ 1
  /-- It has its value. -/
  value : ∀ m ∈ ms, m.1 = name → written m.2
  /-- It is left out only if there is nothing to write. -/
  omitted : name ∉ names ms → nothing

/-- Members that make up settings with the given rows of aliases and the given entries. -/
structure MadeUp (rows : List (String × String)) (entries : List StandardEntry)
    (ms : List (String × List Char)) : Prop where
  /-- The member with the aliases. -/
  aliases : Optional aliasesName (AliasTable.Written rows) (rows = []) ms
  /-- The member with the entries. -/
  standard : Optional standardName (StandardEntry.AllWritten entries) (entries = []) ms
  /-- Other members have some value. -/
  others : ∀ m ∈ ms, m.1 ≠ aliasesName → m.1 ≠ standardName → Value m.2

/-- Members with well-formed values that make up no settings: one of the two that are asked for occurs
more than once, or an entry has a field missing or too many. -/
structure Misfit (ms : List (String × List Char)) : Prop where
  /-- The values are well formed. -/
  values : ∀ m ∈ ms, Value m.2
  /-- What is wrong. -/
  wrong : 2 ≤ (names ms).count aliasesName ∨ 2 ≤ (names ms).count standardName ∨
    ∃ m ∈ ms, m.1 = standardName ∧ StandardEntry.HasMisfit m.2

/-- A document that is an object with the given members. -/
def IsDocument (ms : List (String × List Char)) (document : String) : Prop :=
  ∃ a v b, Blanks a ∧ ObjectOf Quoted ms v ∧ Blanks b ∧ document.toList = a ++ (v ++ b)

/-! ## Members -/

lemma aliasesName_ne_standardName : aliasesName ≠ standardName := by decide

lemma readMember_aliasesName {p : Parts} (hp : p.aliases = none) (ha : Blanks a) (s : List Char) :
    readMember p aliasesName (a ++ ':' :: s) = do
      let (t, s) ← AliasTable.read s
      return ({ p with aliases := some t }, s) := by
  simp only [readMember, if_pos, hp, ha.colon_append]
  rfl

lemma readMember_standardName {p : Parts} (hp : p.standard = none) (ha : Blanks a) (s : List Char) :
    readMember p standardName (a ++ ':' :: s) = do
      let (es, s) ← StandardEntry.readAll s
      return ({ p with standard := some es }, s) := by
  simp only [readMember, if_neg aliasesName_ne_standardName.symm, if_pos, hp, ha.colon_append]
  rfl

lemma readMember_other {p : Parts} {name : String} (haliases : name ≠ aliasesName)
    (hstandard : name ≠ standardName) (ha : Blanks a) (s : List Char) :
    readMember p name (a ++ ':' :: s) = (do return (p, ← skipValue s)) := by
  simp only [readMember, if_neg haliases, if_neg hstandard, ha.colon_append]
  rfl

/-! ## Members that make up settings -/

/-- A part that was read, or is still to come at most once, or else is empty. -/
structure Due {α : Type} (name : String) (written : List Char → Prop) (x nothing : α)
    (read : Option α) (ms : List (String × List Char)) : Prop where
  /-- It does not come twice, nor after it was read. -/
  once : read.isSome.toNat + (names ms).count name ≤ 1
  /-- What was read is right. -/
  right : ∀ y, read = some y → y = x
  /-- What comes has its value. -/
  value : ∀ m ∈ ms, m.1 = name → written m.2
  /-- What was not read and does not come is empty. -/
  omitted : read = none → name ∉ names ms → x = nothing

section Due

variable {α : Type} {name : String} {written : List Char → Prop} {x nothing : α} {read : Option α}
  {m : String × List Char} {ms : List (String × List Char)}

lemma Optional.due {empty : Prop} (h : Optional name written empty ms) (hempty : empty → x = nothing) :
    Due name written x nothing none ms where
  once := by simpa using h.once
  right := nofun
  value := h.value
  omitted _ hnot := hempty (h.omitted hnot)

lemma Due.skip (h : Due name written x nothing read (m :: ms)) (hm : m.1 ≠ name) :
    Due name written x nothing read ms where
  once := by
    have := h.once
    rwa [count_names_cons, if_neg hm] at this
  right := h.right
  value m hm := h.value m (List.mem_cons_of_mem _ hm)
  omitted hread hnot := by
    refine h.omitted hread ?_
    rw [names, List.map_cons, List.mem_cons]
    exact not_or_intro (fun heq => hm heq.symm) hnot

lemma Due.take (h : Due name written x nothing read (m :: ms)) (hm : m.1 = name) :
    read = none ∧ written m.2 ∧ Due name written x nothing (some x) ms := by
  have honce := h.once
  rw [count_names_cons, if_pos hm] at honce
  refine ⟨?_, h.value m List.mem_cons_self hm, ?_⟩
  · cases read with
    | none => rfl
    | some y =>
      rw [Option.isSome_some, Bool.toNat_true] at honce
      omega
  · refine ⟨?_, ?_, fun m hm => h.value m (List.mem_cons_of_mem _ hm), nofun⟩
    · rw [Option.isSome_some, Bool.toNat_true]
      omega
    · rintro y ⟨⟩
      rfl

lemma Due.done (h : Due name written x nothing read []) : read.getD nothing = x := by
  cases read with
  | none => exact (h.omitted rfl List.not_mem_nil).symm
  | some y => exact h.right y rfl

end Due

/-- What is still to come completes the parts that were read. -/
structure Completes (rows : List (String × String)) (entries : List StandardEntry) (p : Parts)
    (ms : List (String × List Char)) : Prop where
  /-- The table of aliases. -/
  aliases : Due aliasesName (AliasTable.Written rows) (.ofRows rows) .empty p.aliases ms
  /-- The list of entries. -/
  standard : Due standardName (StandardEntry.AllWritten entries) entries [] p.standard ms
  /-- Other members have some value. -/
  others : ∀ m ∈ ms, m.1 ≠ aliasesName → m.1 ≠ standardName → Value m.2

lemma Completes.along {rows : List (String × String)} {entries : List StandardEntry} {p : Parts}
    {ms : List (String × List Char)} (h : Completes rows entries p ms) :
    ∃ p', Along (TakesMember readMember) p ms p' ∧ p'.settings = ⟨.ofRows rows, entries⟩ := by
  induction ms generalizing p with
  | nil =>
    refine ⟨p, .nil p, ?_⟩
    rw [Parts.settings, h.aliases.done, h.standard.done]
  | cons m ms ih =>
    obtain ⟨name, v⟩ := m
    have hothers : ∀ m ∈ ms, m.1 ≠ aliasesName → m.1 ≠ standardName → Value m.2 :=
      fun m hm => h.others m (List.mem_cons_of_mem _ hm)
    by_cases haliases : name = aliasesName
    · subst haliases
      obtain ⟨hnone, hwritten, hdue⟩ := h.aliases.take rfl
      obtain ⟨p', halong, hp'⟩ := ih (p := { p with aliases := some (.ofRows rows) })
        ⟨hdue, h.standard.skip aliasesName_ne_standardName, hothers⟩
      refine ⟨p', .cons ?_ halong, hp'⟩
      intro a b rest ha hb _
      rw [readMember_aliasesName hnone ha, hwritten.read_eq hb]
      rfl
    by_cases hstandard : name = standardName
    · subst hstandard
      obtain ⟨hnone, hwritten, hdue⟩ := h.standard.take rfl
      obtain ⟨p', halong, hp'⟩ := ih (p := { p with standard := some entries })
        ⟨h.aliases.skip haliases, hdue, hothers⟩
      refine ⟨p', .cons ?_ halong, hp'⟩
      intro a b rest ha hb _
      rw [readMember_standardName hnone ha, hwritten.readAll_eq hb]
      rfl
    · obtain ⟨p', halong, hp'⟩ := ih (p := p)
        ⟨h.aliases.skip haliases, h.standard.skip hstandard, hothers⟩
      refine ⟨p', .cons ?_ halong, hp'⟩
      intro a b rest ha hb hrest
      have hvalue := h.others _ List.mem_cons_self haliases hstandard
      rw [readMember_other haliases hstandard ha, hvalue.skipValue_eq hb hrest]
      rfl

/-- Members that make up settings are read as those settings. -/
lemma MadeUp.read_eq {rows : List (String × String)} {entries : List StandardEntry}
    {ms : List (String × List Char)} (h : MadeUp rows entries ms) (hv : ObjectOf Quoted ms v)
    (ha : Blanks a) (rest : List Char) :
    read (a ++ (v ++ rest)) = .ok (⟨.ofRows rows, entries⟩, rest) := by
  obtain ⟨inner, hitems, rfl⟩ := hv
  have hcompletes : Completes rows entries .none ms :=
    ⟨h.aliases.due (by rintro rfl; rfl), h.standard.due id, h.others⟩
  obtain ⟨p, halong, hp⟩ := hcompletes.along
  rw [enclosed_append, read, ha.skipBlanks_append_cons rfl]
  change (members readMember .none _ >>= _) = _
  rw [halong.members_eq hitems, ← hp]
  rfl

/-! ## Members that do not -/

/-- What a member does to the parts: it fills the one that it names, which was empty. -/
structure Fills (p : Parts) (m : String × List Char) (p' : Parts) : Prop where
  /-- The table of aliases. -/
  aliases : p'.aliases.isSome.toNat = p.aliases.isSome.toNat + if m.1 = aliasesName then 1 else 0
  /-- The list of entries. -/
  standard : p'.standard.isSome.toNat = p.standard.isSome.toNat + if m.1 = standardName then 1 else 0
  /-- Each entry fits. -/
  fits : m.1 = standardName → ¬ StandardEntry.HasMisfit m.2

/-- A member with any value is not read beyond its end, and no part is read twice. -/
lemma yields_readMember {p : Parts} {name : String} (h : Value v) (ha : Blanks a) (hb : Blanks b)
    (hrest : Apart rest) :
    Yields (Fills p (name, v)) rest (readMember p name (a ++ ':' :: (b ++ (v ++ rest)))) := by
  by_cases haliases : name = aliasesName
  · subst haliases
    cases hp : p.aliases with
    | some t =>
      simp only [readMember, if_true, hp, Option.isSome_some]
      exact yields_error _
    | none =>
      rw [readMember_aliasesName hp ha]
      refine (AliasTable.yields_read h hb rest).bind fun t _ => yields_ok ⟨?_, ?_, ?_⟩
      · simp [hp]
      · simp [aliasesName_ne_standardName]
      · exact fun heq => absurd heq aliasesName_ne_standardName
  by_cases hstandard : name = standardName
  · subst hstandard
    cases hp : p.standard with
    | some es =>
      simp only [readMember, if_neg haliases, if_true, hp, Option.isSome_some]
      exact yields_error _
    | none =>
      rw [readMember_standardName hp ha]
      refine (StandardEntry.yields_readAll h hb rest).bind fun es hes => yields_ok ⟨?_, ?_, fun _ => hes⟩
      · simp [haliases]
      · simp [hp]
  · rw [readMember_other haliases hstandard ha, h.skipValue_eq hb hrest]
    refine yields_ok ⟨?_, ?_, fun heq => absurd heq hstandard⟩
    · simp [haliases]
    · simp [hstandard]

/-- Parts that are filled along the members tell that none of these is too many. -/
lemma not_misfit_of_along {p : Parts} {ms : List (String × List Char)} (h : Along Fills .none ms p) :
    ¬ Misfit ms := by
  -- a part counts for one at most, and it counts the members with its name
  rintro ⟨-, haliases | hstandard | ⟨m, hm, hname, hmisfit⟩⟩
  · have hcount := h.count_eq (·.aliases.isSome.toNat) Fills.aliases
    have hle := p.aliases.isSome.toNat_le
    omega
  · have hcount := h.count_eq (·.standard.isSome.toNat) Fills.standard
    have hle := p.standard.isSome.toNat_le
    omega
  · exact h.forall_mem (fun hfills => hfills.fits) m hm hname hmisfit

/-- A member too many makes reading fail. -/
lemma Misfit.read_eq_error {ms : List (String × List Char)} (h : Misfit ms) (hv : ObjectOf Quoted ms v)
    (ha : Blanks a) (rest : List Char) : ∃ fault, read (a ++ (v ++ rest)) = .error fault := by
  obtain ⟨inner, hitems, rfl⟩ := hv
  rw [enclosed_append, read, ha.skipBlanks_append_cons rfl]
  have hmembers : Yields (Along Fills .none ms) ('}' :: rest)
      (members readMember .none (inner ++ '}' :: rest)) := by
    refine hitems.yields_members naming_quoted ?_
    rintro m hm p _ a b rest rfl ha hb hrest
    exact yields_readMember (h.values m hm) ha hb hrest
  obtain ⟨fault, hfault⟩ := (hmembers.imp fun _ halong => not_misfit_of_along halong h).exists_error
  refine ⟨fault, ?_⟩
  change (members readMember .none _ >>= _) = _
  rw [hfault]
  rfl

/-! ## Documents -/

lemma readDocument_of_read_eq {document : String} {settings : Settings}
    (h : read document.toList = .ok (settings, b)) (hb : Blanks b) :
    readDocument document = .ok settings := by
  have hend : skipBlanks b = [] := by
    rw [← List.append_nil b, hb.skipBlanks_append]
    rfl
  simp only [readDocument, h, bind, Except.bind, hend]
  rfl

/-- **What is read from a document depends on what it holds.**  Whatever the order of its members and
whatever else there is among them, a document that makes up rows of aliases and entries gives the
settings with these rows, of which the last with an alias counts, and these entries, or the defects of
these settings.  If one of the two members occurs twice, or a field of an entry is missing or occurs
twice, the document cannot be read. -/
theorem ofDocument_of_layout {ms : List (String × List Char)} {document : String}
    (h : IsDocument ms document) :
    (∀ rows entries, MadeUp rows entries ms →
      ofDocument document = ((Settings.mk (.ofRows rows) entries).check).mapError Refusal.defective ∧
        ∀ language, (AliasTable.ofRows rows).get? language = rows.reverse.lookup language) ∧
    (Misfit ms → ∃ fault, ofDocument document = .error (.unreadable fault)) := by
  obtain ⟨a, v, b, ha, hv, hb, hdocument⟩ := h
  refine ⟨fun rows entries hmade => ⟨?_, AliasTable.get?_ofRows rows⟩, fun hmisfit => ?_⟩
  · have hread := hmade.read_eq hv ha b
    rw [← hdocument] at hread
    simp only [ofDocument, readDocument_of_read_eq hread hb]
    cases hcheck : (Settings.mk (.ofRows rows) entries).check <;> rfl
  · obtain ⟨fault, hfault⟩ := hmisfit.read_eq_error hv ha b
    rw [← hdocument] at hfault
    refine ⟨fault, ?_⟩
    simp only [ofDocument, readDocument, hfault, bind, Except.bind]

/-- Members in an order of their own, one of which nobody asks for, and an alias that occurs twice. -/
def shuffled : List (String × List Char) :=
  [("note", writeList [quote "de", "null".toList]),
    (standardName, writeList [writeObject [writeMember "canonical" (quote "go"),
      writeMember "note" "true".toList, writeMember "localized" (quote "los"),
      writeMember "language" (quote "de"), writeMember "target" (quote "home")]]),
    (aliasesName, writeObject [writeMember "de_AT" (quote "at"), writeMember "de_AT" (quote "de")])]

/-- Members of which one is an entry without most of its fields. -/
def incomplete : List (String × List Char) :=
  [(standardName, writeList [writeObject [writeMember "target" (quote "home")]])]

lemma madeUp_shuffled :
    MadeUp [("de_AT", "at"), ("de_AT", "de")] [⟨"home", "de", "los", "go"⟩] shuffled where
  aliases := by
    refine ⟨by decide, ?_, fun h => absurd h (by decide)⟩
    simp only [shuffled, List.forall_mem_cons]
    refine ⟨fun h => absurd h (by decide), fun h => absurd h (by decide), fun _ => ?_, by simp⟩
    exact ⟨_, objectOf_writeObject [("de_AT", quote "at"), ("de_AT", quote "de")],
      .cons ⟨rfl, quoted_quote _⟩ (.cons ⟨rfl, quoted_quote _⟩ .nil)⟩
  standard := by
    refine ⟨by decide, ?_, fun h => absurd h (by decide)⟩
    simp only [shuffled, List.forall_mem_cons]
    refine ⟨fun h => absurd h (by decide), fun _ => ?_, fun h => absurd h (by decide), by simp⟩
    refine ⟨_, listOf_writeList _, .cons ⟨_, objectOf_writeObject [("canonical", quote "go"),
      ("note", "true".toList), ("localized", quote "los"), ("language", quote "de"),
      ("target", quote "home")], ?_, ?_, ?_⟩ .nil⟩
    · intro f
      cases f <;> decide
    · rintro ⟨name, v⟩ hm f rfl
      obtain rfl : v = quote (StandardEntry.get ⟨"home", "de", "los", "go"⟩ f) := by
        cases f <;> simpa [Field.name, StandardEntry.get] using hm
      exact quoted_quote _
    · simp only [List.forall_mem_cons]
      exact ⟨fun _ => value_quote _, fun _ => .word (by decide), fun _ => value_quote _,
        fun _ => value_quote _, fun _ => value_quote _, by simp⟩
  others := by
    simp only [shuffled, List.forall_mem_cons]
    refine ⟨fun _ _ => ?_, fun _ h => absurd rfl h, fun h => absurd rfl h, by simp⟩
    refine .list (listOf_writeList _) ?_
    simp only [List.forall_mem_cons]
    exact ⟨value_quote _, .word (by decide), by simp⟩

lemma misfit_incomplete : Misfit incomplete := by
  have hobject := objectOf_writeObject [("target", quote "home")]
  have hvalues : ∀ m ∈ [("target", quote "home")], Value m.2 := by
    simpa using value_quote "home"
  have hlist := listOf_writeList [writeObject [writeMember "target" (quote "home")]]
  have hentries : ∀ v ∈ [writeObject [writeMember "target" (quote "home")]], Value v := by
    simpa using hobject.value hvalues
  have hmisfit : StandardEntry.Misfit (writeObject [writeMember "target" (quote "home")]) :=
    ⟨_, hobject, hvalues, .canonical, by decide⟩
  refine ⟨?_, Or.inr (Or.inr ⟨_, List.mem_cons_self, rfl, ?_⟩)⟩
  · simpa [incomplete] using Value.list hlist hentries
  · exact ⟨_, hlist, hentries, _, List.mem_cons_self, hmisfit⟩

theorem ofDocument_of_layout_shuffled :
    let document := "\n\x7b \"note\" : [\"de\",null],\n  \"standardTranslations\" :[\x7b" ++
      "\"canonical\":\"go\",\"note\":true,\"localized\":\"los\",\"language\":\"de\"," ++
      "\"target\":\"home\"\x7d] ,\"languageRemap\":\t\x7b\"de_AT\":\"at\",\"de_AT\":\"de\"\x7d \x7d\r\n"
    let broken := "\x7b\"standardTranslations\":[\x7b\"target\":\"home\"\x7d]\x7d"
    IsDocument shuffled document ∧
    MadeUp [("de_AT", "at"), ("de_AT", "de")] [⟨"home", "de", "los", "go"⟩] shuffled ∧
    ofDocument document = .ok ⟨.ofRows [("de_AT", "de")], [⟨"home", "de", "los", "go"⟩]⟩ ∧
    IsDocument incomplete broken ∧ Misfit incomplete ∧
    ∃ fault, ofDocument broken = .error (.unreadable fault) := by
  intro document broken
  have hdocument : IsDocument shuffled document := by
    have hitems : Items (Member Quoted) true shuffled _ :=
      .first (a := [' ']) (by decide)
        (member_quote _ (a := [' ']) (b := [' ']) (by decide) (by decide)) <|
      .next (b := []) (a := ['\n', ' ', ' ']) (by decide) (by decide)
        (member_quote _ (a := [' ']) (b := []) (by decide) (by decide)) <|
      .next (b := [' ']) (a := []) (by decide) (by decide)
        (member_quote _ (a := []) (b := ['\t']) (by decide) (by decide)) <|
      .nil (b := [' ']) (by decide)
    exact ⟨['\n'], _, ['\r', '\n'], by decide, ⟨_, hitems, rfl⟩, by decide, by decide +kernel⟩
  have hbroken : IsDocument incomplete broken :=
    ⟨[], _, [], by decide, objectOf_writeObject incomplete, by decide, by decide +kernel⟩
  have hrows : AliasTable.ofRows [("de_AT", "at"), ("de_AT", "de")] = .ofRows [("de_AT", "de")] := by
    decide
  have hsettings :
      (Settings.mk (.ofRows [("de_AT", "de")]) [⟨"home", "de", "los", "go"⟩]).defects = [] := by
    decide
  refine ⟨hdocument, madeUp_shuffled, ?_, hbroken, misfit_incomplete,
    (ofDocument_of_layout hbroken).2 misfit_incomplete⟩
  rw [((ofDocument_of_layout hdocument).1 _ _ madeUp_shuffled).1, hrows, check_eq_ok_iff.2 ⟨hsettings, rfl⟩]
  rfl

end Settings

end Glossary
