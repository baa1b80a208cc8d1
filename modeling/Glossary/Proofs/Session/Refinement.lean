import Glossary.Proofs.Lexicon.Reachable
import Glossary.Proofs.Lexicon.Reflects
import Glossary.Proofs.Session.Ledger
import Glossary.Proofs.World.Naming
import Mathlib.Data.List.Forall2

/-!
# A session answers as its ledger does

In an orderly run every reply of a session is that of the ledger: the layers, when they are made
and when they are removed, do not show.  `Keeps` ties the two together.  `Keeps.step` says that
every request preserves it and is answered alike, and the run is an induction over the requests.

Session and ledger both read the chain of an object off the stage.  That this is the chain by
delegation, which `World.Leads` describes without the stage, is `Stage.chain_eq_ok_iff_leads`.
-/

namespace Glossary

namespace Stage

variable {s : Stage} {root : ObjectId} {q : Request}

/-! ## The stage in an orderly run -/

lemma chain_of_mem_toOption {name : Option String} {c : Chain}
    (h : c ∈ (s.chain name).toOption) : s.chain name = .ok c := by
  cases hc : s.chain name with
  | error e => simp [hc, Except.toOption] at h
  | ok y => simpa [hc, Except.toOption] using h

/-- What a permitted request does to the stage. -/
lemma Sound.next (h : s.Sound) (hq : s.Permits root q) :
    ∃ new, Moves s new (s.next q) ∧ (q.given? = none → ∀ t ∈ new, t.isPlain = true) := by
  have hnone : ∀ {s' : Stage}, Moves s none s' →
      ∃ new, Moves s new s' ∧ (q.given? = none → ∀ t ∈ new, t.isPlain = true) :=
    fun hmoves => ⟨none, hmoves, fun _ t ht => by cases ht⟩
  cases q with
  | setParent object parent => cases hq.settled
  | make name recipe =>
    rw [Stage.next]
    cases hmake : s.make name recipe with
    | error e => exact hnone h.moves
    | ok y =>
      obtain ⟨new, hmoves, hplain⟩ := h.make hmake <| by
        rintro raw parent leased carries rfl r t ht hid
        exact hq.new t (Array.mem_of_getElem? ht) (congrArg some hid.symm)
      refine ⟨new, hmoves, fun hgiven => hplain ?_⟩
      rintro raw parent leased carries rfl
      cases hgiven
  | expire object =>
    rw [Stage.next]
    cases hexpire : s.expire object with
    | error e => exact hnone h.moves
    | ok y => exact hnone (h.expire hexpire)
  | drop object =>
    rw [Stage.next]
    cases hdrop : s.drop object with
    | error e => exact hnone h.moves
    | ok y => exact hnone (h.drop hdrop)
  | _ => exact hnone h.moves

/-- What was asked before leaves a sound stage, and the rest of the run is orderly. -/
lemma Sound.orderly_append (h : s.Sound) {before rest : List Request}
    (ho : s.Orderly root (before ++ rest)) :
    (before.foldl Stage.next s).Sound ∧ (before.foldl Stage.next s).Orderly root rest := by
  induction before generalizing s with
  | nil => exact ⟨h, ho⟩
  | cons q before ih =>
    obtain ⟨new, hmoves, -⟩ := h.next ho.1
    exact ih hmoves.sound ho.2

/-- The chain of a named object leads only over living objects, as far as the root object. -/
lemma Sound.walks (h : s.Sound) {name : Option String} {c : Chain} (hc : s.chain name = .ok c)
    (hruns : s.Runs root name) : s.world.Walks root c := by
  obtain ⟨r, t, hleads, hliving⟩ := h.chain hc
  refine ⟨h.world.formed, ⟨r, t, hleads⟩, fun y hy hgone => ?_⟩
  have hended := hruns c (by rw [hc]; rfl) y hy
  obtain ⟨k, u, hu, rfl, hplain⟩ := hliving y ((List.takeWhile_sublist _).subset hy)
  obtain ⟨k', u', hu', hid, hdead⟩ := hgone
  -- the dead thing is the one on the chain, as it has the same identity
  have hk := h.world.formed.unique k' k u' u hu' hu hid
  rw [hk, hu] at hu'
  obtain rfl := Option.some.inj hu'
  cases hid' : u.id with
  | minted n =>
    have hliving' := hplain (h.world.formed.minted k u n hu hid').2
    rw [hdead] at hliving'
    cases hliving'
  | given raw =>
    have halive : u.alive? = some false := by simpa [Thing.isDead] using hdead
    have hlease := hended (by rw [Thing.link_id, hid']; rfl)
    simp [Thing.link, halive, World.ended, hu] at hlease

/-- As long as all things are plain, no given identity is on any chain. -/
lemma Sound.permits_of_plain (h : s.Sound)
    (hplain : ∀ r t, s.world.thing? r = some t → t.isPlain = true) (hsettled : q.redirects = false)
    (hgiven : q.given? = none) : s.Permits root q := by
  refine ⟨hsettled, fun t _ hid => ?_, fun name _ c hc y hy hyg => ?_⟩
  · rw [hgiven] at hid
    cases hid
  · obtain ⟨r, t, -, hliving⟩ := h.chain (chain_of_mem_toOption hc)
    obtain ⟨k, u, hu, rfl, -⟩ := hliving y ((List.takeWhile_sublist _).subset hy)
    cases hid : u.id with
    | minted n =>
      rw [Thing.link_id, hid] at hyg
      cases hyg
    | given raw =>
      have hhosted := h.world.formed.given k u raw hu hid
      rw [hplain k u hu] at hhosted
      cases hhosted

/-- As long as all things are plain, nothing is asked of a run but that delegation stays. -/
lemma Sound.orderly_of_plain (h : s.Sound)
    (hplain : ∀ r t, s.world.thing? r = some t → t.isPlain = true) {requests : List Request}
    (hrequests : ∀ q ∈ requests, q.redirects = false ∧ q.given? = none) :
    s.Orderly root requests := by
  induction requests generalizing s with
  | nil => trivial
  | cons q rest ih =>
    obtain ⟨hsettled, hgiven⟩ := hrequests q List.mem_cons_self
    have hq : s.Permits root q := h.permits_of_plain hplain hsettled hgiven
    obtain ⟨new, hmoves, hnew⟩ := h.next hq
    refine ⟨hq, ih hmoves.sound (fun r u hu => ?_) fun q' hq' => ?_⟩
    · rcases hmoves.back r u hu with ⟨t, ht, hkept⟩ | ⟨t, ht, hkept⟩
      · exact hkept.plain.trans (hnew hgiven t ht)
      · exact hkept.plain.trans (hplain r t ht)
    · exact hrequests q' (List.mem_cons_of_mem _ hq')

end Stage

/-! ## One request -/

variable {root : ObjectId} {aliases : AliasTable} {x : Ledger} {s : Session}

/-- A session shows what its ledger says. -/
structure Keeps (root : ObjectId) (aliases : AliasTable) (x : Ledger) (s : Session) : Prop where
  /-- The stage is the same. -/
  stage : s.stage = x.stage
  /-- The stage is sound. -/
  sound : x.stage.Sound
  /-- The aliases are those of the ledger. -/
  aliases : s.lexicon.aliases = aliases
  /-- The layers show the tables. -/
  reflects : s.lexicon.tree.Reflects root x.stage.world x.tables

/-- A request is carried out alike by a ledger and by a session. -/
inductive Alike (root : ObjectId) (aliases : AliasTable) :
    Except Refusal (Ledger × Option Answer) → Except Refusal (Outcome Session Answer) → Prop
  /-- Both refuse, for the same reason. -/
  | refused (e : Refusal) : Alike root aliases (.error e) (.error e)
  /-- Both carry it out, and the answer is that of the ledger, if it has one. -/
  | done {y : Ledger} {a : Option Answer} {o : Outcome Session Answer}
    (hkeeps : Keeps root aliases y o.state) (hanswer : ∀ b ∈ a, o.result = b) :
    Alike root aliases (.ok (y, a)) (.ok o)

lemma Alike.bind {α : Type} {m : Except Refusal α} {f : α → Except Refusal (Ledger × Option Answer)}
    {g : α → Except Refusal (Outcome Session Answer)}
    (h : ∀ a, m = .ok a → Alike root aliases (f a) (g a)) :
    Alike root aliases (m >>= f) (m >>= g) := by
  cases m with
  | error e => exact .refused e
  | ok a => exact h a rfl

/-- A request that changes nothing, and is answered alike. -/
lemma Keeps.reading (h : Keeps root aliases x s) {a : Option Answer} {b : Answer}
    {events : List Event} (hanswer : ∀ c ∈ a, b = c) :
    Alike root aliases (.ok (x, a)) (.ok (s.reading b events)) :=
  .done h hanswer

/-- A request that changes no more than the stage. -/
lemma Keeps.onStage (h : Keeps root aliases x s) {stage : Stage} (hsound : stage.Sound)
    (hlater : x.stage.world.Later stage.world) (a : Answer) :
    Alike root aliases (.ok ({ x with stage }, some a)) (.ok (s.onStage stage a)) := by
  refine .done ⟨rfl, hsound, h.aliases, ?_⟩ fun b hb => Option.some.inj hb
  exact h.reflects.later h.sound.world.formed hlater

/-- A request that changes no more than the lexicon. -/
lemma Keeps.lift (h : Keeps root aliases x s) {α : Type} {o : Outcome Lexicon α}
    {answer : α → Answer} {a : Option Answer} {tables : Tables}
    (htree : o.state.tree.Reflects root x.stage.world tables)
    (haliases : o.state.aliases = s.lexicon.aliases) (hanswer : ∀ b ∈ a, answer o.result = b) :
    Alike root aliases (.ok ({ x with tables }, a)) (.ok (s.lift answer o)) :=
  .done ⟨h.stage, h.sound, haliases.trans h.aliases, htree⟩ hanswer

lemma Keeps.canonical_eq (h : Keeps root aliases x s) (language : String) :
    s.lexicon.canonical language = aliases.canonical language := by
  rw [Lexicon.canonical, h.aliases]

/-- Standard entries that are put in place are added to the tables. -/
lemma Keeps.preload (h : Keeps root aliases x s) (entries : List StandardEntry)
    (hwalks : ∀ e ∈ entries, ∀ c, x.stage.target? e.target = some c →
      x.stage.world.Walks root c) :
    (s.lexicon.preload x.stage.world.ended x.stage.target? entries).state.tree.Reflects root
        x.stage.world (entries.foldl (Ledger.install aliases x.stage) x.tables) ∧
      (s.lexicon.preload x.stage.world.ended x.stage.target? entries).state.aliases = aliases := by
  have haliases := h.aliases
  have hreflects := h.reflects
  rw [Lexicon.preload_state]
  -- the lexicon and the tables move on together, entry by entry
  generalize s.lexicon = l at haliases hreflects
  generalize x.tables = T at hreflects
  induction entries generalizing l T with
  | nil => exact ⟨hreflects, haliases⟩
  | cons e rest ih =>
    have hrest : ∀ e ∈ rest, ∀ c, x.stage.target? e.target = some c →
        x.stage.world.Walks root c := fun e he => hwalks e (List.mem_cons_of_mem _ he)
    rw [List.foldl_cons, List.foldl_cons, Lexicon.install, Ledger.install]
    cases hc : x.stage.target? e.target with
    | none => exact ih hrest l haliases T hreflects
    | some c =>
      have hadd := Lexicon.reflects_add hreflects (hwalks e List.mem_cons_self c hc) e.language
        e.localized e.canonical
      rw [Lexicon.canonical, haliases] at hadd
      exact ih hrest (l.add _ c e.language e.localized e.canonical).state haliases _ hadd

lemma chain_of_receiver {stage : Stage} {d : Direction} {name : Option String} {c : Chain}
    (h : stage.receiver d name = .ok (.carrier c)) : stage.chain name = .ok c := by
  rw [Stage.receiver] at h
  split at h
  · cases h
  · cases hb : stage.binding name with
    | error e => simp [hb, Bind.bind, Except.bind] at h
    | ok b =>
      cases b with
      | foreign => simp [hb, Bind.bind, Except.bind, pure, Except.pure] at h
      | thing r =>
        cases ho : stage.object name with
        | error e => simp [hb, ho, Bind.bind, Except.bind] at h
        | ok y =>
          simp only [hb, ho, Bind.bind, Except.bind] at h
          split at h
          · cases hc : stage.chain name with
            | error e => simp [hc] at h
            | ok c' =>
              simp only [hc, pure, Except.pure, Except.ok.injEq, Receiver.carrier.injEq] at h
              rw [h]
          · cases h

/-- Every request that an orderly run permits is carried out alike. -/
lemma Keeps.step (h : Keeps root aliases x s) {q : Request} (hq : x.stage.Permits root q) :
    Alike root aliases (x.step root aliases q) (s.step q) := by
  have hwalks : ∀ name ∈ q.walked, ∀ c, x.stage.chain name = .ok c →
      x.stage.world.Walks root c := fun name hname c hc => h.sound.walks hc (hq.running name hname)
  obtain ⟨new, hnext, -⟩ := h.sound.next hq
  obtain ⟨stage, lexicon⟩ := s
  obtain rfl : stage = x.stage := h.stage
  cases q with
  | setParent object parent => cases hq.settled
  | make name recipe =>
    -- the layers do not change, and what they say of things holds in the later world
    refine Alike.bind fun y hy => ?_
    simp only [Stage.next, hy, Except.toOption, Option.map_some, Option.getD_some] at hnext
    exact h.onStage hnext.sound hnext.later _
  | expire object =>
    refine Alike.bind fun y hy => ?_
    simp only [Stage.next, hy, Except.toOption, Option.map_some, Option.getD_some] at hnext
    exact h.onStage hnext.sound hnext.later _
  | drop object =>
    refine Alike.bind fun y hy => ?_
    simp only [Stage.next, hy, Except.toOption, Option.map_some, Option.getD_some] at hnext
    exact h.onStage hnext.sound hnext.later _
  | alive object => exact Alike.bind fun y _ => h.reading fun b hb => Option.some.inj hb
  | profile object => exact Alike.bind fun y _ => h.reading fun b hb => Option.some.inj hb
  | add object language source target =>
    refine Alike.bind fun c hc => ?_
    have hadd := Lexicon.reflects_add h.reflects (hwalks object List.mem_cons_self c hc) language
      source target
    rw [h.canonical_eq] at hadd
    exact h.lift hadd rfl fun b hb => Option.some.inj hb
  | remove object language source =>
    refine Alike.bind fun c hc => ?_
    obtain ⟨htree, hresult⟩ :=
      Lexicon.reflects_remove h.reflects (hwalks object List.mem_cons_self c hc) language source
    rw [h.canonical_eq] at htree hresult
    refine h.lift htree (Lexicon.aliases_remove _ _ _ _ _) fun b hb => ?_
    rw [← Option.some.inj hb, hresult]
  | find d object language name =>
    refine Alike.bind fun c hc => ?_
    obtain ⟨htree, hresult⟩ :=
      Lexicon.reflects_find h.reflects (hwalks object List.mem_cons_self c hc) d language name
    rw [h.canonical_eq] at hresult
    refine h.lift htree rfl fun b hb => ?_
    rw [← Option.some.inj hb, hresult]
  | substitute d object language name =>
    refine Alike.bind fun r hr => ?_
    cases r with
    | absent => exact h.reading fun b hb => Option.some.inj hb
    | foreign => exact h.reading fun b hb => Option.some.inj hb
    | carrier c =>
      have hvalue := Lexicon.reflects_substitute h.reflects
        (hwalks object List.mem_cons_self c (chain_of_receiver hr)) d language name
      rw [h.canonical_eq] at hvalue
      exact h.reading fun b hb => Option.some.inj hb ▸ congrArg Answer.text hvalue
  | canonical language =>
    exact h.reading fun b hb => by rw [← Option.some.inj hb, h.canonical_eq]
  | ensure object =>
    refine Alike.bind fun c hc => ?_
    obtain ⟨htree, -⟩ :=
      Lexicon.reflects_ensure h.reflects (hwalks object List.mem_cons_self c hc)
    exact h.lift htree rfl fun b hb => by cases hb
  | layerOf object => exact Alike.bind fun y _ => h.reading fun b hb => by cases hb
  | nearest object => exact Alike.bind fun y _ => h.reading fun b hb => by cases hb
  | own layer key => exact h.reading fun b hb => by cases hb
  | resolve layer key => exact h.reading fun b hb => by cases hb
  | preload entries =>
    obtain ⟨htree, haliases⟩ := h.preload entries fun e he c hc =>
      hwalks (some e.target) (List.mem_map_of_mem he) c (Stage.chain_of_mem_toOption hc)
    exact h.lift htree (haliases.trans h.aliases.symm) fun b hb => by cases hb
  | listing => exact h.reading fun b hb => by cases hb

/-! ## A run of requests -/

namespace Ledger

/-- The stage after a request was carried out or refused. -/
def stageAfter (x : Ledger) : Except Refusal (Ledger × Option Answer) → Stage
  | .ok (y, _) => y.stage
  | .error _ => x.stage

lemma stageAfter_bind {α : Type} {m : Except Refusal α}
    {f : α → Except Refusal (Ledger × Option Answer)} (h : ∀ a, x.stageAfter (f a) = x.stage) :
    x.stageAfter (m >>= f) = x.stage := by
  cases m with
  | error e => rfl
  | ok a => exact h a

/-- A ledger moves on with the stage. -/
lemma stageAfter_step (root : ObjectId) (aliases : AliasTable) (x : Ledger) (q : Request) :
    x.stageAfter (x.step root aliases q) = x.stage.next q := by
  cases q with
  | make name recipe =>
    rw [step, Stage.next]
    cases x.stage.make name recipe <;> rfl
  | setParent object parent =>
    rw [step, Stage.next]
    cases x.stage.setParent object parent <;> rfl
  | expire object =>
    rw [step, Stage.next]
    cases x.stage.expire object <;> rfl
  | drop object =>
    rw [step, Stage.next]
    cases x.stage.drop object <;> rfl
  | substitute d object language name =>
    refine stageAfter_bind fun r => ?_
    cases r <;> rfl
  | alive object => exact stageAfter_bind fun _ => rfl
  | profile object => exact stageAfter_bind fun _ => rfl
  | add object language source target => exact stageAfter_bind fun _ => rfl
  | remove object language source => exact stageAfter_bind fun _ => rfl
  | find d object language name => exact stageAfter_bind fun _ => rfl
  | ensure object => exact stageAfter_bind fun _ => rfl
  | layerOf object => exact stageAfter_bind fun _ => rfl
  | nearest object => exact stageAfter_bind fun _ => rfl
  | canonical language => rfl
  | own layer key => rfl
  | resolve layer key => rfl
  | preload entries => rfl
  | listing => rfl

end Ledger

/-- An orderly run is answered alike. -/
lemma Keeps.replies (h : Keeps root aliases x s) {requests : List Request}
    (ho : x.stage.Orderly root requests) :
    List.Forall₂ Confirms (x.replies root aliases requests) (s.replies requests) := by
  induction requests generalizing x s with
  | nil => exact .nil
  | cons q rest ih =>
    obtain ⟨hq, hrest⟩ := ho
    have hstep := h.step hq
    rw [← Ledger.stageAfter_step root aliases] at hrest
    rw [Ledger.replies, Session.replies]
    cases hx : x.step root aliases q with
    | error e =>
      rw [hx] at hstep hrest
      generalize s.step q = m at hstep ⊢
      cases hstep
      exact .cons (.refused e) (ih h hrest)
    | ok y =>
      obtain ⟨y, a⟩ := y
      rw [hx] at hstep hrest
      generalize s.step q = m at hstep ⊢
      cases hstep with
      | done hkeeps hanswer =>
        refine .cons ?_ (ih hkeeps hrest)
        cases a with
        | none => exact .silent _
        | some b =>
          rw [hanswer b rfl]
          exact .said b

/-- **A ledger falls back along delegation.**  The chain along which it looks a name up is read off
the stage.  At every moment of an orderly run that is the chain of the world: the thing to which the
name refers, what this delegates to, and so on, up to a thing that delegates to nothing. -/
theorem Stage.chain_eq_ok_iff_leads {before requests : List Request}
    (h : Stage.empty.Orderly root (before ++ requests)) (name : Option String) (c : Chain) :
    let stage := before.foldl Stage.next .empty
    stage.chain name = .ok c ↔
      ∃ r t, stage.object name = .ok (r, t) ∧ stage.world.Leads r t c.links := by
  obtain ⟨hsound, -⟩ := Stage.sound_empty.orderly_append h
  exact hsound.chain_eq_ok_iff

namespace Session

/-- **A session answers as its ledger does.**  Whatever was made on the stage before, and whatever
the root object is, every reply in an orderly run is the one that the tables give, looked up along
delegation (`Stage.chain_eq_ok_iff_leads`).  A run that makes no hosted things is orderly as long as
nothing is told to delegate to something else, by `Stage.Sound.orderly_of_plain`. -/
theorem answers_as_ledger (root : ObjectId) (aliases : AliasTable) (before requests : List Request)
    (h : Stage.empty.Orderly root (before ++ requests)) :
    List.Forall₂ Confirms
      ((Ledger.start (before.foldl Stage.next .empty)).replies root aliases requests)
      ((Session.start (before.foldl Stage.next .empty) root aliases).state.replies requests) := by
  obtain ⟨hsound, ho⟩ := Stage.sound_empty.orderly_append h
  have hkeeps : Keeps root aliases (Ledger.start (before.foldl Stage.next .empty))
      (Session.start (before.foldl Stage.next .empty) root aliases).state :=
    ⟨rfl, hsound, rfl, LayerTree.reflects_start root _⟩
  exact hkeeps.replies ho

/-- A run that makes seventy things, each of which takes the name of the one before, so that this
one dies and its layer is removed in time. -/
def turnover : List Request :=
  (List.replicate 70
    [.make "leaf" (.plain (some "top")), .add (some "leaf") "de" "los" "go"]).flatten ++
  [.find .reverse (some "leaf") "de" "go", .drop (some "leaf"),
    .substitute .forward (some "top") "de" "los"]

theorem answers_as_ledger_turnover :
    Stage.empty.Orderly (.minted 0) ([.make "top" (.plain none)] ++ turnover) ∧
    List.Forall₂ Confirms
      ((Ledger.start ([.make "top" (.plain none)].foldl Stage.next .empty)).replies (.minted 0)
        .empty turnover)
      ((Session.start ([.make "top" (.plain none)].foldl Stage.next .empty) (.minted 0)
        .empty).state.replies turnover) := by
  have h : Stage.empty.Orderly (.minted 0) ([.make "top" (.plain none)] ++ turnover) := by
    refine Stage.sound_empty.orderly_of_plain ?_ (by decide +kernel)
    simp [Stage.empty, World.empty, World.thing?]
  exact ⟨h, answers_as_ledger (.minted 0) .empty [.make "top" (.plain none)] turnover h⟩

end Session

end Glossary
