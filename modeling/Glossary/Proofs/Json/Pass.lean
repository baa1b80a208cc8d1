import Glossary.Proofs.Json.Token

/-!
# Passing over values

A value that nobody asks for is passed over by a machine that keeps the open containers on a stack.  One
turn of it takes a value or an opening bracket, and then all the closing brackets after it, the comma and
the name that the next value has.  So a turn does not end where a value ends, and what the machine does
on a value can only be said together with what it does afterwards: `Continues` says what happens once a
value has been taken, and `Value.passable` that a value leads there.

As for the other loops, `Passes` is a run of the machine without its bound on the turns.
-/

namespace Glossary.Json

variable {stack : List Frame} {v w a b s rest r : List Char}

/-! ## Runs of the machine -/

/-- The machine passes over everything up to the end of the outermost open container, and over one value
if there is none. -/
inductive Passes : List Frame → List Char → List Char → Prop
  /-- The last turn. -/
  | last {stack : List Frame} {s r : List Char} (h : skipTurn stack s = .ok ([], r)) :
    Passes stack s r
  /-- A turn after which something is open. -/
  | turn {stack fs : List Frame} {f : Frame} {s s' r : List Char}
    (h : skipTurn stack s = .ok (f :: fs, s')) (hshorter : s'.length < s.length)
    (hrest : Passes (f :: fs) s' r) : Passes stack s r

lemma Passes.skipUpTo_eq (h : Passes stack s r) {n : Nat} (hn : s.length < n) :
    skipUpTo n stack s = .ok r := by
  induction h generalizing n with
  | last h =>
    cases n with
    | zero => omega
    | succ n =>
      rw [skipUpTo, h]
      rfl
  | turn h hshorter _ ih =>
    cases n with
    | zero => omega
    | succ n =>
      rw [skipUpTo, h]
      exact ih (by omega)

/-- The part of a turn after the value or the opening bracket. -/
def settle (afterValue : Bool) (stack : List Frame) (s : List Char) :
    Except Fault (List Frame × List Char) := do
  let (stack, s) ← unwind afterValue stack s
  if stack.head? = some .object then return (stack, ← skipName s) else return (stack, s)

lemma skipTurn_eq {opened : Option Frame} (h : skipStart (skipBlanks s) = .ok (opened, rest)) :
    skipTurn stack s = settle opened.isNone (opened.toList ++ stack) rest := by
  rw [skipTurn, h]
  rfl

/-- How the machine goes on after a value or an opening bracket. -/
inductive Continues (afterValue : Bool) : List Frame → List Char → List Char → Prop
  /-- Nothing is open any more. -/
  | last {stack : List Frame} {s r : List Char} (h : settle afterValue stack s = .ok ([], r)) :
    Continues afterValue stack s r
  /-- Another value follows. -/
  | turn {stack fs : List Frame} {f : Frame} {s s' r : List Char}
    (h : settle afterValue stack s = .ok (f :: fs, s')) (hle : s'.length ≤ s.length)
    (hrest : Passes (f :: fs) s' r) : Continues afterValue stack s r

lemma Continues.passes {opened : Option Frame} (hstart : skipStart (skipBlanks s) = .ok (opened, rest))
    (hshorter : rest.length < s.length)
    (h : Continues opened.isNone (opened.toList ++ stack) rest r) : Passes stack s r := by
  cases h with
  | last h => exact .last ((skipTurn_eq hstart).trans h)
  | turn h hle hrest => exact .turn ((skipTurn_eq hstart).trans h) (by omega) hrest

/-! ## What stands between values -/

lemma Blanks.skipBlanks_append (ha : Blanks a) (s : List Char) : skipBlanks (a ++ s) = skipBlanks s :=
  List.dropWhile_append_of_pos ha

/-- Blanks end where something else begins. -/
lemma Blanks.skipBlanks_append_cons (ha : Blanks a) {c : Char} (hc : isBlank c = false)
    (s : List Char) : skipBlanks (a ++ c :: s) = c :: s := by
  rw [ha.skipBlanks_append, skipBlanks_of_not_blank hc]

lemma Blanks.colon_append (ha : Blanks a) (s : List Char) : colon (a ++ ':' :: s) = .ok s := by
  rw [colon, ha.skipBlanks_append_cons rfl]
  rfl

lemma isBlank_closer (f : Frame) : isBlank f.closer = false := by
  cases f <;> rfl

lemma settle_close (afterValue : Bool) (f : Frame) (hb : Blanks b) :
    settle afterValue (f :: stack) (b ++ f.closer :: rest) = settle true stack rest := by
  have hcomma : ¬ (afterValue = true ∧ f.closer = ',') := by cases f <;> simp [Frame.closer]
  rw [settle, unwind, hb.skipBlanks_append_cons (isBlank_closer f)]
  simp only [if_neg hcomma, if_true]
  rfl

lemma unwind_comma (f : Frame) (hb : Blanks b) :
    unwind true (f :: stack) (b ++ ',' :: s) = .ok (f :: stack, s) := by
  rw [unwind, hb.skipBlanks_append_cons rfl]
  simp

lemma unwind_open {f : Frame} {c : Char} (ha : Blanks a) (hc : isBlank c = false)
    (hcloser : c ≠ f.closer) :
    unwind false (f :: stack) (a ++ c :: s) = .ok (f :: stack, c :: s) := by
  rw [unwind, ha.skipBlanks_append_cons hc]
  simp [hcloser]

lemma IsText.skipName_eq {name : List Char} (h : IsText name) (ha : Blanks a) (hb : Blanks b)
    (s : List Char) : skipName (a ++ (name ++ (b ++ ':' :: s))) = .ok s := by
  obtain ⟨w, hw, rfl⟩ := h
  rw [enclosed_append, skipName, ha.skipBlanks_append_cons rfl]
  simp only [if_true, hw.skipText_eq, bind, Except.bind, hb.colon_append]

lemma settle_comma_list (hb : Blanks b) :
    settle true (.list :: stack) (b ++ ',' :: s) = .ok (.list :: stack, s) := by
  rw [settle, unwind_comma .list hb]
  rfl

lemma settle_open_list (ha : Blanks a) (hv : BeginsValue v) :
    settle false (.list :: stack) (a ++ (v ++ s)) = .ok (.list :: stack, v ++ s) := by
  obtain ⟨c, w, rfl, hblank, hclose⟩ := hv
  rw [List.cons_append, settle, unwind_open (f := .list) ha hblank hclose]
  rfl

lemma settle_comma_object {name a' : List Char} (hb : Blanks b) (ha : Blanks a)
    (hname : IsText name) (ha' : Blanks a') :
    settle true (.object :: stack) (b ++ ',' :: (a ++ (name ++ (a' ++ ':' :: s)))) =
      .ok (.object :: stack, s) := by
  rw [settle, unwind_comma .object hb]
  change (skipName _ >>= _) = _
  rw [hname.skipName_eq ha ha']
  rfl

lemma settle_open_object {name a' : List Char} (ha : Blanks a) (hname : IsText name)
    (ha' : Blanks a') :
    settle false (.object :: stack) (a ++ (name ++ (a' ++ ':' :: s))) =
      .ok (.object :: stack, s) := by
  have hskip := hname.skipName_eq (a := []) (by decide) ha' s
  obtain ⟨w, rfl⟩ := hname.begins
  rw [List.cons_append, settle, unwind_open ha rfl (by decide)]
  change (skipName _ >>= _) = _
  rw [← List.cons_append, ← List.nil_append ('"' :: w ++ _), hskip]
  rfl

/-! ## Values -/

lemma skipStart_word (h : w ∈ ["null".toList, "true".toList, "false".toList]) (rest : List Char) :
    skipStart (w ++ rest) = .ok (none, rest) := by
  simp only [List.mem_cons, List.not_mem_nil, or_false] at h
  rcases h with rfl | rfl | rfl <;> simp [skipStart, word, Functor.map, Except.map]

lemma IsText.skipStart_eq (h : IsText w) (rest : List Char) :
    skipStart (w ++ rest) = .ok (none, rest) := by
  obtain ⟨w, hw, rfl⟩ := h
  rw [enclosed_append]
  simp [skipStart, hw.skipText_eq, Functor.map, Except.map]

lemma IsNumber.skipStart_eq (h : IsNumber w) (hrest : Apart rest) :
    skipStart (w ++ rest) = .ok (none, rest) := by
  obtain ⟨hsign, hw, hf, he⟩ := h
  have hnumber := skipNumber_append hw hf he hrest
  rcases hsign with rfl | rfl
  · obtain ⟨d, ds, rfl, hd⟩ := hw.begins
    simp only [List.nil_append, List.cons_append, List.append_assoc] at hnumber ⊢
    have hne : ∀ c : Char, c.isDigit = false → d ≠ c := fun c => ne_of_isDigit hd
    simp [skipStart, hne '[' rfl, hne '{' rfl, hne 'n' rfl, hne 't' rfl, hne 'f' rfl, hne '"' rfl,
      hne '-' rfl, hd, hnumber, Functor.map, Except.map]
  · simp [skipStart, hnumber, Functor.map, Except.map]

/-- A value is passed over, whatever is open and whatever follows. -/
def Passable (v : List Char) : Prop :=
  ∀ {stack : List Frame} {a rest r : List Char}, Blanks a → Apart rest → Continues true stack rest r →
    Passes stack (a ++ (v ++ rest)) r

lemma Continues.close {afterValue : Bool} {f : Frame} (h : Continues true stack rest r)
    (hb : Blanks b) : Continues afterValue (f :: stack) (b ++ f.closer :: rest) r := by
  have hsettle : settle afterValue (f :: stack) (b ++ f.closer :: rest) = settle true stack rest :=
    settle_close afterValue f hb
  cases h with
  | last h => exact .last (hsettle.trans h)
  | turn h hle hrest =>
    refine .turn (hsettle.trans h) ?_ hrest
    simp only [List.length_append, List.length_cons]
    omega

/-- The elements of a list are passed over one after another, up to its end. -/
lemma Items.continues_list {first : Bool} {vs : List (List Char)} (h : Items Eq first vs w)
    (hvs : ∀ v ∈ vs, Passable v ∧ BeginsValue v) (hr : Continues true stack rest r) :
    Continues (!first) (.list :: stack) (w ++ ']' :: rest) r := by
  induction h with
  | nil hb => exact hr.close hb
  | @first v vs a v w ha hx hxs ih =>
    subst hx
    have hlater := ih fun v hv => hvs v (List.mem_cons_of_mem _ hv)
    obtain ⟨hpass, hbegins⟩ := hvs v List.mem_cons_self
    rw [List.append_assoc, List.append_assoc]
    refine .turn (settle_open_list ha hbegins) (by simp) ?_
    exact hpass (a := []) (by decide) (hxs.apart (apart_closer .list rest)) hlater
  | @next v vs b a v w hb ha hx hxs ih =>
    subst hx
    have hlater := ih fun v hv => hvs v (List.mem_cons_of_mem _ hv)
    obtain ⟨hpass, -⟩ := hvs v List.mem_cons_self
    rw [List.append_assoc, List.cons_append, List.append_assoc, List.append_assoc]
    refine .turn (settle_comma_list hb) ?_ ?_
    · simp only [List.length_append, List.length_cons]
      omega
    · exact hpass ha (hxs.apart (apart_closer .list rest)) hlater

/-- The members of an object are passed over one after another, up to its end. -/
lemma Items.continues_object {first : Bool} {ms : List (Unit × List Char)}
    (h : Items (Member AnyName) first ms w) (hms : ∀ m ∈ ms, Passable m.2)
    (hr : Continues true stack rest r) :
    Continues (!first) (.object :: stack) (w ++ '}' :: rest) r := by
  induction h with
  | nil hb => exact hr.close hb
  | @first m ms a v w ha hx hxs ih =>
    obtain ⟨name, a', b', hname, ha', hb', rfl⟩ := hx
    have hlater := ih fun m hm => hms m (List.mem_cons_of_mem _ hm)
    simp only [List.append_assoc, List.cons_append]
    refine .turn (settle_open_object ha hname ha') ?_ ?_
    · simp only [List.length_append, List.length_cons]
      omega
    · exact hms m List.mem_cons_self hb' (hxs.apart (apart_closer .object rest)) hlater
  | @next m ms b a v w hb ha hx hxs ih =>
    obtain ⟨name, a', b', hname, ha', hb', rfl⟩ := hx
    have hlater := ih fun m hm => hms m (List.mem_cons_of_mem _ hm)
    simp only [List.append_assoc, List.cons_append]
    refine .turn (settle_comma_object hb ha hname ha') ?_ ?_
    · simp only [List.length_append, List.length_cons]
      omega
    · exact hms m List.mem_cons_self hb' (hxs.apart (apart_closer .object rest)) hlater

lemma BeginsValue.skipBlanks_append (hv : BeginsValue v) (ha : Blanks a) (rest : List Char) :
    skipBlanks (a ++ (v ++ rest)) = v ++ rest := by
  obtain ⟨c, w, rfl, hblank, -⟩ := hv
  exact ha.skipBlanks_append_cons hblank _

lemma BeginsValue.length_lt (hv : BeginsValue v) (a rest : List Char) :
    rest.length < (a ++ (v ++ rest)).length := by
  obtain ⟨c, w, rfl, -⟩ := hv
  simp only [List.length_append, List.length_cons]
  omega

/-- A value that is no container is passed over at once. -/
lemma passable_of_skipStart (hv : BeginsValue v)
    (h : ∀ {rest : List Char}, Apart rest → skipStart (v ++ rest) = .ok (none, rest)) :
    Passable v := by
  intro stack a rest r ha hrest hr
  have hstart : skipStart (skipBlanks (a ++ (v ++ rest))) = .ok (none, rest) := by
    rw [hv.skipBlanks_append ha, h hrest]
  exact Continues.passes hstart (hv.length_lt a rest) hr

/-- A container is passed over if its content is, up to the closing bracket. -/
lemma passable_of_content {f : Frame} {c : Char} (hc : isBlank c = false)
    (hstart : ∀ s, skipStart (c :: s) = .ok (some f, s))
    (h : ∀ {stack : List Frame} {rest r : List Char}, Continues true stack rest r →
      Continues false (f :: stack) (w ++ f.closer :: rest) r) :
    Passable (c :: (w ++ [f.closer])) := by
  intro stack a rest r ha _ hr
  rw [enclosed_append]
  have hopen : skipStart (skipBlanks (a ++ c :: (w ++ f.closer :: rest))) =
      .ok (some f, w ++ f.closer :: rest) := by
    rw [ha.skipBlanks_append_cons hc, hstart]
  refine Continues.passes hopen ?_ (h hr)
  simp only [List.length_append, List.length_cons]
  omega

lemma Value.passable (h : Value v) : Passable v := by
  induction h with
  | word h => exact passable_of_skipStart (Value.word h).beginsValue fun _ => skipStart_word h _
  | number h => exact passable_of_skipStart (Value.number h).beginsValue h.skipStart_eq
  | text h => exact passable_of_skipStart (Value.text h).beginsValue fun _ => h.skipStart_eq _
  | list h hvs ih =>
    obtain ⟨inner, hitems, rfl⟩ := h
    refine passable_of_content (f := .list) rfl (fun _ => rfl) fun hr => ?_
    exact hitems.continues_list (fun v hv => ⟨ih v hv, (hvs v hv).beginsValue⟩) hr
  | object h _ ih =>
    obtain ⟨inner, hitems, rfl⟩ := h
    refine passable_of_content (f := .object) rfl (fun _ => rfl) fun hr => ?_
    exact hitems.continues_object ih hr

/-- A value is passed over up to its end. -/
lemma Value.skipValue_eq (h : Value v) (ha : Blanks a) (hrest : Apart rest) :
    skipValue (a ++ (v ++ rest)) = .ok rest := by
  have hpass : Passes [] (a ++ (v ++ rest)) rest := h.passable ha hrest (.last rfl)
  exact hpass.skipUpTo_eq (Nat.lt_succ_self _)

end Glossary.Json
