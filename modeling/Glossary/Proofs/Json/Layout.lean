import Glossary.Proofs.Json.Pass

/-!
# Reading containers with any layout

How the loops for members and elements fare on a container that is laid out with blanks.  Two things are
said of them, each from what the reader does with one member or element.

If the reader takes every part, the loop takes the container (`Along.members_eq`, `Along.elements_eq`).
And whatever the reader does, as long as it does not go astray, neither does the loop
(`Items.yields_members`, `Items.yields_elements`): it fails, or it stops in front of the closing bracket
after states that follow one another.  The second is what shows that documents are refused, by showing
that no row of states could lead through them.
-/

namespace Glossary.Json

variable {σ α ν : Type} {v w a b s rest : List Char} {first : Bool} {state state' : σ} {n : Nat}

/-- States that follow one another along a list, each step being made on account of one item. -/
inductive Along (S : σ → α → σ → Prop) : σ → List α → σ → Prop
  /-- There are no items. -/
  | nil (state : σ) : Along S state [] state
  /-- A step for the first item, and then the others. -/
  | cons {state next state' : σ} {x : α} {xs : List α} (h : S state x next)
    (hrest : Along S next xs state') : Along S state (x :: xs) state'

lemma Along.forall_mem {S : σ → α → σ → Prop} {Q : α → Prop} {xs : List α}
    (h : Along S state xs state') (hS : ∀ {state x next}, S state x next → Q x) : ∀ x ∈ xs, Q x := by
  induction h with
  | nil _ => simp
  | cons h _ ih => exact List.forall_mem_cons.2 ⟨hS h, ih⟩

lemma count_names_cons (m : String × List Char) (ms : List (String × List Char)) (name : String) :
    (names (m :: ms)).count name = (names ms).count name + if m.1 = name then 1 else 0 := by
  simp [names, List.count_cons]

/-- A number that grows with each member of a name counts them. -/
lemma Along.count_eq {S : σ → String × List Char → σ → Prop} {ms : List (String × List Char)}
    {name : String} (count : σ → Nat)
    (hS : ∀ {state m next}, S state m next → count next = count state + if m.1 = name then 1 else 0)
    (h : Along S state ms state') : count state' = count state + (names ms).count name := by
  induction h with
  | nil _ => simp [names]
  | cons h _ ih =>
    rw [ih, hS h, count_names_cons]
    omega

/-! ## The next member and the next element -/

lemma Items.nextName_nil {P : α → List Char → Prop} (h : Items P first [] w) (rest : List Char) :
    nextName first (w ++ '}' :: rest) = .ok (none, '}' :: rest) := by
  obtain ⟨hb⟩ := h
  rw [nextName, hb.skipBlanks_append_cons rfl]
  rfl

/-- The next member is found behind blanks and a comma, and its name is read. -/
lemma Items.nextName_cons {N : ν → List Char → Prop} (hN : ∀ x name, N x name → IsText name)
    {m : ν × List Char} {ms : List (ν × List Char)} (h : Items (Member N) first (m :: ms) w)
    (rest : List Char) :
    ∃ name a b w', N m.1 name ∧ Blanks a ∧ Blanks b ∧ Items (Member N) false ms w' ∧
      w'.length < w.length ∧
      nextName first (w ++ '}' :: rest) = (do
        let (name, s) ← memberName (name ++ (a ++ ':' :: (b ++ (m.2 ++ (w' ++ '}' :: rest)))))
        return (some name, s)) := by
  cases h with
  | @first _ _ c v w' hc hm hms =>
    obtain ⟨name, a, b, hname, ha, hb, rfl⟩ := hm
    refine ⟨name, a, b, w', hname, ha, hb, hms, ?_, ?_⟩
    · simp only [List.length_append, List.length_cons]
      omega
    · obtain ⟨t, rfl⟩ := (hN _ _ hname).begins
      simp only [List.append_assoc, List.cons_append]
      rw [nextName, hc.skipBlanks_append_cons rfl]
      rfl
  | @next _ _ d c v w' hd hc hm hms =>
    obtain ⟨name, a, b, hname, ha, hb, rfl⟩ := hm
    refine ⟨name, a, b, w', hname, ha, hb, hms, ?_, ?_⟩
    · simp only [List.length_append, List.length_cons]
      omega
    · obtain ⟨t, rfl⟩ := (hN _ _ hname).begins
      simp only [List.append_assoc, List.cons_append]
      rw [nextName, hd.skipBlanks_append_cons rfl]
      simp only [hc.skipBlanks_append_cons (c := '"') rfl]
      rfl

lemma Items.nextElement_nil {P : α → List Char → Prop} (h : Items P first [] w) (rest : List Char) :
    nextElement first (w ++ ']' :: rest) = .ok (false, ']' :: rest) := by
  obtain ⟨hb⟩ := h
  rw [nextElement, hb.skipBlanks_append_cons rfl]
  rfl

/-- The next element is found behind blanks and a comma. -/
lemma Items.nextElement_cons {vs : List (List Char)} (h : Items Eq first (v :: vs) w)
    (hv : BeginsValue v) (rest : List Char) :
    ∃ w', Items Eq false vs w' ∧ w'.length < w.length ∧
      nextElement first (w ++ ']' :: rest) = .ok (true, v ++ (w' ++ ']' :: rest)) := by
  obtain ⟨c, t, rfl, hblank, hclose⟩ := hv
  cases h with
  | @first _ _ a _ w' ha hx hxs =>
    subst hx
    refine ⟨w', hxs, ?_, ?_⟩
    · simp only [List.length_append, List.length_cons]
      omega
    · simp only [List.append_assoc, List.cons_append]
      rw [nextElement, ha.skipBlanks_append_cons hblank]
      simp [hclose]
  | @next _ _ b a _ w' hb ha hx hxs =>
    subst hx
    refine ⟨w', hxs, ?_, ?_⟩
    · simp only [List.length_append, List.length_cons]
      omega
    · simp only [List.append_assoc, List.cons_append]
      rw [nextElement, hb.skipBlanks_append_cons rfl]
      simp [ha.skipBlanks_append_cons hblank, hclose]

/-! ## Containers that are taken -/

/-- A reader takes a member, whatever blanks it has and whatever follows. -/
def TakesMember (read : σ → String → Reader σ) (state : σ) (m : String × List Char) (next : σ) :
    Prop :=
  ∀ {a b rest : List Char}, Blanks a → Blanks b → Apart rest →
    read state m.1 (a ++ ':' :: (b ++ (m.2 ++ rest))) = .ok (next, rest)

lemma Along.run_members {read : σ → String → Reader σ} {ms : List (String × List Char)}
    (h : Along (TakesMember read) state ms state') (hitems : Items (Member Quoted) first ms w)
    (rest : List Char) : Members read first state (w ++ '}' :: rest) state' ('}' :: rest) := by
  induction h generalizing first w with
  | nil state => exact .done (hitems.nextName_nil rest)
  | cons h _ ih =>
    obtain ⟨name, a, b, w', hname, ha, hb, hitems, hlength, hnext⟩ :=
      hitems.nextName_cons (fun _ _ => Quoted.isText) rest
    rw [hname.memberName_eq] at hnext
    refine .turn hnext (h ha hb (hitems.apart (apart_closer .object rest))) ?_ (ih hitems)
    simp only [List.length_append, List.length_cons]
    omega

/-- An object of which every member is taken is run through to its closing brace. -/
lemma Along.members_eq {read : σ → String → Reader σ} {ms : List (String × List Char)}
    (h : Along (TakesMember read) state ms state') (hitems : Items (Member Quoted) true ms w)
    (rest : List Char) : members read state (w ++ '}' :: rest) = .ok (state', '}' :: rest) :=
  (h.run_members hitems rest).members_eq

/-- A reader takes an element, whatever follows. -/
def TakesElement (read : σ → Reader σ) (state : σ) (v : List Char) (next : σ) : Prop :=
  BeginsValue v ∧ ∀ {rest : List Char}, Apart rest → read state (v ++ rest) = .ok (next, rest)

lemma Along.run_elements {read : σ → Reader σ} {vs : List (List Char)}
    (h : Along (TakesElement read) state vs state') (hitems : Items Eq first vs w)
    (rest : List Char) : Elements read first state (w ++ ']' :: rest) state' (']' :: rest) := by
  induction h generalizing first w with
  | nil state => exact .done (hitems.nextElement_nil rest)
  | cons h _ ih =>
    obtain ⟨w', hitems, hlength, hnext⟩ := hitems.nextElement_cons h.1 rest
    refine .turn hnext (h.2 (hitems.apart (apart_closer .list rest))) ?_ (ih hitems)
    simp only [List.length_append, List.length_cons]
    omega

/-- A list of which every element is taken is run through to its closing bracket. -/
lemma Along.elements_eq {read : σ → Reader σ} {vs : List (List Char)}
    (h : Along (TakesElement read) state vs state') (hitems : Items Eq true vs w)
    (rest : List Char) : elements read state (w ++ ']' :: rest) = .ok (state', ']' :: rest) :=
  (h.run_elements hitems rest).elements_eq

/-! ## Readers that do not go astray -/

/-- Reading fails, or it stops in front of `rest` with a value of which `P` holds. -/
def Yields (P : α → Prop) (rest : List Char) (r : Except Fault (α × List Char)) : Prop :=
  ∀ x s, r = .ok (x, s) → s = rest ∧ P x

variable {β : Type} {P P' : α → Prop}

lemma yields_error (f : Fault) : Yields P rest (.error f) := by
  rintro x s ⟨⟩

lemma yields_ok {x : α} (h : P x) : Yields P rest (.ok (x, rest)) := by
  rintro y s ⟨⟩
  exact ⟨rfl, h⟩

lemma Yields.imp {r : Except Fault (α × List Char)} (h : Yields P rest r) (hP : ∀ x, P x → P' x) :
    Yields P' rest r :=
  fun x s hr => ⟨(h x s hr).1, hP x (h x s hr).2⟩

lemma Yields.exists_error {r : Except Fault (α × List Char)} (h : Yields (fun _ => False) rest r) :
    ∃ f, r = .error f := by
  cases r with
  | error f => exact ⟨f, rfl⟩
  | ok p => exact (h p.1 p.2 rfl).2.elim

lemma Yields.bind {Q : β → Prop} {mid : List Char} {r : Except Fault (α × List Char)}
    {f : α × List Char → Except Fault (β × List Char)} (h : Yields P mid r)
    (hf : ∀ x, P x → Yields Q rest (f (x, mid))) : Yields Q rest (r >>= f) := by
  intro y s hy
  cases hr : r with
  | error fault =>
    rw [hr] at hy
    cases hy
  | ok p =>
    obtain ⟨x, t⟩ := p
    obtain ⟨rfl, hx⟩ := h x t hr
    rw [hr] at hy
    exact hf x hx y s hy

/-- A well-formed text is not read beyond its end. -/
lemma IsText.yields_memberName (h : IsText v) (rest : List Char) :
    Yields (fun _ => True) rest (memberName (v ++ rest)) := by
  obtain ⟨w, hw, rfl⟩ := h
  intro t s ht
  rw [enclosed_append, memberName, if_pos rfl] at ht
  have hskip := skipText_of_textBody ht
  rw [hw.skipText_eq] at hskip
  cases hskip
  exact ⟨rfl, trivial⟩

/-- What is known of the names of members: they are well formed, and what is read for them. -/
structure Naming (N : ν → List Char → Prop) (Q : ν → String → Prop) : Prop where
  /-- The names are texts. -/
  isText : ∀ x name, N x name → IsText name
  /-- A name is read, if at all, as one that it can stand for. -/
  reads : ∀ x name rest, N x name → Yields (Q x) rest (memberName (name ++ rest))

lemma naming_quoted : Naming Quoted fun x name => name = x where
  isText _ _ := Quoted.isText
  reads x name rest h := by
    rw [h.memberName_eq]
    exact yields_ok rfl

lemma naming_any : Naming AnyName fun _ _ => True where
  isText _ _ h := h
  reads _ _ rest h := IsText.yields_memberName h rest

/-- If the members of an object are not read astray, the loop goes along them. -/
lemma Items.yields_members {read : σ → String → Reader σ} {S : σ → ν × List Char → σ → Prop}
    {N : ν → List Char → Prop} {Q : ν → String → Prop} {ms : List (ν × List Char)}
    (hN : Naming N Q)
    (hread : ∀ m ∈ ms, ∀ {state name a b rest}, Q m.1 name → Blanks a → Blanks b → Apart rest →
      Yields (S state m) rest (read state name (a ++ ':' :: (b ++ (m.2 ++ rest)))))
    (h : Items (Member N) first ms w) :
    Yields (Along S state ms) ('}' :: rest) (membersUpTo read n first state (w ++ '}' :: rest)) := by
  -- the bound need not be large enough: running out of turns is a failure like any other
  induction ms generalizing first w state n with
  | nil =>
    cases n with
    | zero => exact yields_error _
    | succ n =>
      rw [membersUpTo, h.nextName_nil rest]
      exact yields_ok (.nil state)
  | cons m ms ih =>
    cases n with
    | zero => exact yields_error _
    | succ n =>
      obtain ⟨name, a, b, w', hname, ha, hb, hitems, -, hnext⟩ := h.nextName_cons hN.isText rest
      have hfound : Yields (fun found => ∃ name, found = some name ∧ Q m.1 name)
          (a ++ ':' :: (b ++ (m.2 ++ (w' ++ '}' :: rest)))) (nextName first (w ++ '}' :: rest)) := by
        rw [hnext]
        exact (hN.reads _ _ _ hname).bind fun name hq => yields_ok ⟨name, rfl, hq⟩
      rw [membersUpTo]
      refine hfound.bind ?_
      rintro _ ⟨name, rfl, hq⟩
      have hapart := hitems.apart (apart_closer .object rest)
      refine (hread m List.mem_cons_self hq ha hb hapart).bind fun next hstep => ?_
      refine (ih (fun m hm => hread m (List.mem_cons_of_mem _ hm)) hitems).imp fun _ hrest => ?_
      exact .cons hstep hrest

/-- If the elements of a list are not read astray, the loop goes along them. -/
lemma Items.yields_elements {read : σ → Reader σ} {S : σ → List Char → σ → Prop}
    {vs : List (List Char)} (hvs : ∀ v ∈ vs, BeginsValue v)
    (hread : ∀ v ∈ vs, ∀ {state rest}, Apart rest → Yields (S state v) rest (read state (v ++ rest)))
    (h : Items Eq first vs w) :
    Yields (Along S state vs) (']' :: rest)
      (elementsUpTo read n first state (w ++ ']' :: rest)) := by
  induction vs generalizing first w state n with
  | nil =>
    cases n with
    | zero => exact yields_error _
    | succ n =>
      rw [elementsUpTo, h.nextElement_nil rest]
      exact yields_ok (.nil state)
  | cons v vs ih =>
    cases n with
    | zero => exact yields_error _
    | succ n =>
      obtain ⟨w', hitems, -, hnext⟩ := h.nextElement_cons (hvs v List.mem_cons_self) rest
      rw [elementsUpTo, hnext]
      have hapart := hitems.apart (apart_closer .list rest)
      refine (hread v List.mem_cons_self hapart).bind fun next hstep => ?_
      refine (ih (fun v hv => hvs v (List.mem_cons_of_mem _ hv))
        (fun v hv => hread v (List.mem_cons_of_mem _ hv)) hitems).imp fun _ hrest => ?_
      exact .cons hstep hrest

/-! ## Values of any kind -/

/-- What the first character of a value tells of it. -/
structure Kind (v : List Char) (c : Char) : Prop where
  /-- It is no blank. -/
  not_blank : isBlank c = false
  /-- A brace tells of an object. -/
  object : c = '{' → ∃ ms, ObjectOf AnyName ms v ∧ ∀ m ∈ ms, Value m.2
  /-- A bracket tells of a list. -/
  list : c = '[' → ∃ vs, ListOf vs v ∧ ∀ u ∈ vs, Value u
  /-- A quote tells of a text. -/
  text : c = '"' → IsText v

lemma kind_of_ne {c : Char} (h : isBlank c = false ∧ c ≠ '{' ∧ c ≠ '[' ∧ c ≠ '"') : Kind v c where
  not_blank := h.1
  object heq := absurd heq h.2.1
  list heq := absurd heq h.2.2.1
  text heq := absurd heq h.2.2.2

/-- The first character of a value tells its kind. -/
lemma Value.exists_kind (h : Value v) : ∃ c w, v = c :: w ∧ Kind v c := by
  cases h with
  | object h hms =>
    obtain ⟨inner, hitems, rfl⟩ := h
    exact ⟨'{', _, rfl, rfl, fun _ => ⟨_, ⟨inner, hitems, rfl⟩, hms⟩, nofun, nofun⟩
  | list h hvs =>
    obtain ⟨inner, hitems, rfl⟩ := h
    exact ⟨'[', _, rfl, rfl, nofun, fun _ => ⟨_, ⟨inner, hitems, rfl⟩, hvs⟩, nofun⟩
  | text h =>
    obtain ⟨w, hv⟩ := h.begins
    exact ⟨'"', w, hv, rfl, nofun, nofun, fun _ => h⟩
  | word h =>
    simp only [List.mem_cons, List.not_mem_nil, or_false] at h
    rcases h with rfl | rfl | rfl
    · exact ⟨'n', "ull".toList, by decide, kind_of_ne (by decide)⟩
    · exact ⟨'t', "rue".toList, by decide, kind_of_ne (by decide)⟩
    · exact ⟨'f', "alse".toList, by decide, kind_of_ne (by decide)⟩
  | number h =>
    obtain ⟨d, ds, hv, rfl | hd⟩ := h.begins
    · exact ⟨'-', ds, hv, kind_of_ne (by decide)⟩
    · exact ⟨d, ds, hv, kind_of_ne ⟨isBlank_of_isDigit hd, ne_of_isDigit hd rfl, ne_of_isDigit hd rfl,
        ne_of_isDigit hd rfl⟩⟩

lemma Quoted.text_eq {t : String} (h : Quoted t v) (hb : Blanks b) (rest : List Char) :
    text (b ++ (v ++ rest)) = .ok (t, rest) := by
  have hname := h.memberName_eq rest
  obtain ⟨w, rfl⟩ := h.isText.begins
  rw [List.cons_append] at hname ⊢
  rw [text, hb.skipBlanks_append_cons rfl]
  exact hname

/-- Where a text is asked for, a value is not read beyond its end. -/
lemma Value.yields_text (h : Value v) (hb : Blanks b) (rest : List Char) :
    Yields (fun _ => True) rest (Json.text (b ++ (v ++ rest))) := by
  obtain ⟨c, w, rfl, hkind⟩ := h.exists_kind
  rw [List.cons_append, Json.text, hb.skipBlanks_append_cons hkind.not_blank]
  by_cases hquote : c = '"'
  · have hname := (hkind.text hquote).yields_memberName rest
    subst hquote
    exact hname
  · simp only [if_neg hquote]
    exact yields_error _

end Glossary.Json
