import Glossary.Layer.Graft
import Glossary.Proofs.Layer.Prune

/-!
# How a tree grows

A tree grows by single grafts: an empty layer is put on top of a layer that is there, for an
object that has none.  `WellFormed.graft` is the step, and `WellFormed.graftAll` the run of such
steps that gives a layer to every object on a stretch of a delegation chain.

The stretch is found by `survey`.  `Surveyed` says what it finds: the objects that were passed
have no layer and no identity twice, and the walk stopped at the end of the chain, at an object
with a layer, or at an identity it had passed.  So the tree that `grow` leaves is well formed and
the object has the layer that it gives.
-/

namespace Glossary

namespace Layer

/-- What a graft does to a layer that was there before: its parent has one heir more. -/
def raise (parent : LayerId) (l : Layer) : Layer :=
  if l.id = parent then { l with heirs := l.heirs + 1 } else l

variable (parent : LayerId) (l : Layer)

@[simp] lemma raise_id : (l.raise parent).id = l.id := by
  rw [raise]
  split <;> rfl

@[simp] lemma raise_owner : (l.raise parent).owner = l.owner := by
  rw [raise]
  split <;> rfl

@[simp] lemma raise_parent : (l.raise parent).parent = l.parent := by
  rw [raise]
  split <;> rfl

@[simp] lemma raise_lease : (l.raise parent).lease = l.lease := by
  rw [raise]
  split <;> rfl

@[simp] lemma raise_entries : (l.raise parent).entries = l.entries := by
  rw [raise]
  split <;> rfl

lemma exists_raise_eq : ∃ n, l.raise parent = { l with heirs := n } := by
  rw [raise]
  split
  · exact ⟨_, rfl⟩
  · exact ⟨l.heirs, rfl⟩

end Layer

namespace LayerTree

variable {root : ObjectId} {t : LayerTree} {ended : Lease → Bool} {x : Link} {c : Chain}
  {i parent : LayerId} {pending links xs : List Link}

/-! ## One graft -/

lemma layers_graft (t : LayerTree) (x : Link) (parent : LayerId) :
    (t.graft x parent).layers =
      ⟨t.nextId, x.id, some parent, x.lease, 0, .empty⟩ :: t.layers.map (Layer.raise parent) := rfl

/-- A graft adds one layer and changes no more than the count of its parent. -/
lemma layer?_graft (t : LayerTree) (x : Link) (parent i : LayerId) :
    (t.graft x parent).layer? i =
      if i = t.nextId then some ⟨t.nextId, x.id, some parent, x.lease, 0, .empty⟩
      else (t.layer? i).map (Layer.raise parent) := by
  by_cases hi : i = t.nextId
  · rw [if_pos hi, layer?, layers_graft, List.find?_cons_of_pos (by simp [hi])]
  · rw [if_neg hi, layer?, layers_graft, List.find?_cons_of_neg (by simpa using Ne.symm hi),
      List.find?_map, layer?]
    simp only [Function.comp_def, Layer.raise_id]

lemma layer?_graft_self (t : LayerTree) (x : Link) (parent : LayerId) :
    (t.graft x parent).layer? t.nextId =
      some ⟨t.nextId, x.id, some parent, x.lease, 0, .empty⟩ := by
  rw [layer?_graft, if_pos rfl]

/-- A layer is still there after a graft, unchanged but for its count. -/
lemma WellFormed.layer?_graft_of_layer? (h : t.WellFormed root) {l : Layer}
    (hl : t.layer? i = some l) (x : Link) (parent : LayerId) :
    ∃ n, (t.graft x parent).layer? i = some { l with heirs := n } := by
  have hi : i ≠ t.nextId := by
    rw [← id_of_layer? hl]
    exact Nat.ne_of_lt (h.fresh l (mem_of_layer? hl))
  obtain ⟨n, hn⟩ := l.exists_raise_eq parent
  exact ⟨n, by rw [layer?_graft, if_neg hi, hl, Option.map_some, hn]⟩

/-- A layer that is there after a graft is the new one, or it was there before. -/
lemma layer?_of_layer?_graft {l : Layer} (hl : (t.graft x parent).layer? i = some l) :
    (i = t.nextId ∧ l = ⟨t.nextId, x.id, some parent, x.lease, 0, .empty⟩) ∨
      ∃ m n, t.layer? i = some m ∧ l = { m with heirs := n } := by
  rw [layer?_graft] at hl
  split at hl
  · next hi =>
    obtain rfl := Option.some.inj hl
    exact Or.inl ⟨hi, rfl⟩
  · obtain ⟨m, hm, rfl⟩ := Option.map_eq_some_iff.1 hl
    obtain ⟨n, hn⟩ := m.exists_raise_eq parent
    exact Or.inr ⟨m, n, hm, hn⟩

/-- The layers after a graft: the new one, and those of before with one count raised. -/
lemma mem_graft {m : Layer} :
    m ∈ (t.graft x parent).layers ↔
      m = ⟨t.nextId, x.id, some parent, x.lease, 0, .empty⟩ ∨
        ∃ l ∈ t.layers, m = l.raise parent := by
  simp only [layers_graft, List.mem_cons, List.mem_map]
  constructor
  · rintro (rfl | ⟨l, hl, rfl⟩)
    · exact Or.inl rfl
    · exact Or.inr ⟨l, hl, rfl⟩
  · rintro (rfl | ⟨l, hl, rfl⟩)
    · exact Or.inl rfl
    · exact Or.inr ⟨l, hl, rfl⟩

lemma raise_mem_graft {l : Layer} (hl : l ∈ t.layers) :
    l.raise parent ∈ (t.graft x parent).layers :=
  mem_graft.2 (Or.inr ⟨l, hl, rfl⟩)

/-- A graft raises the number of layers that fall back to its parent. -/
lemma countP_graft (t : LayerTree) (x : Link) (parent i : LayerId) :
    ((t.graft x parent).layers.countP fun m => m.parent = some i) =
      (t.layers.countP fun m => m.parent = some i) + if parent = i then 1 else 0 := by
  rw [layers_graft, List.countP_cons, List.countP_map]
  simp only [Function.comp_def, Layer.raise_parent, Option.some.injEq, decide_eq_true_eq]

/-- After a graft every layer counts its heirs, the new one and its parent included. -/
lemma WellFormed.tally_graft (h : t.WellFormed root) (hparent : parent < t.nextId) {m : Layer}
    (hm : m ∈ (t.graft x parent).layers) :
    m.heirs = (t.graft x parent).layers.countP fun k => k.parent = some m.id := by
  rcases mem_graft.1 hm with rfl | ⟨l, hl, rfl⟩
  · -- nothing falls back to a number that was not in use
    rw [countP_graft, if_neg (Nat.ne_of_lt hparent), Nat.add_zero, eq_comm, List.countP_eq_zero]
    intro l hl hpar
    have hlt := (h.older l hl t.nextId (by simpa using hpar)).1
    exact Nat.lt_asymm hlt (h.fresh l hl)
  · rw [countP_graft, Layer.raise_id, ← h.tally l hl, Layer.raise]
    by_cases hlp : l.id = parent
    · simp [hlp]
    · simp [hlp, Ne.symm hlp]

/-- A graft onto a layer that is there, for an object without a layer. -/
lemma WellFormed.graft (h : t.WellFormed root) {p : Layer} (hp : t.layer? parent = some p)
    (hx : t.layerOf? x.id = none) : (t.graft x parent).WellFormed root := by
  have hparent : parent < t.nextId := by
    rw [← id_of_layer? hp]
    exact h.fresh p (mem_of_layer? hp)
  have hnew := h.layerOf?_eq_none_iff.1 hx
  constructor
  case newestFirst =>
    rw [layers_graft]
    refine List.pairwise_cons.2 ⟨?_, ?_⟩
    · intro m hm
      obtain ⟨l, hl, rfl⟩ := List.mem_map.1 hm
      rw [Layer.raise_id]
      exact h.fresh l hl
    · refine List.pairwise_map.2 (h.newestFirst.imp fun {l m} hlm => ?_)
      rwa [Layer.raise_id, Layer.raise_id]
  case fresh =>
    intro m hm
    rcases mem_graft.1 hm with rfl | ⟨l, hl, rfl⟩
    · exact Nat.lt_succ_self _
    · rw [Layer.raise_id]
      exact Nat.lt_succ_of_lt (h.fresh l hl)
  case base =>
    obtain ⟨l, hl, hi, ho, hle⟩ := h.base
    exact ⟨l.raise parent, raise_mem_graft hl, by simpa using ⟨hi, ho, hle⟩⟩
  case top =>
    intro m hm
    rcases mem_graft.1 hm with rfl | ⟨l, hl, rfl⟩
    · have hne : t.nextId ≠ LayerId.root := Nat.ne_of_gt (Nat.zero_lt_of_lt hparent)
      simpa using hne
    · simpa using h.top l hl
  case older =>
    intro m hm q hq
    rcases mem_graft.1 hm with rfl | ⟨l, hl, rfl⟩
    · obtain rfl := Option.some.inj hq
      refine ⟨hparent, p.raise _, raise_mem_graft (mem_of_layer? hp), ?_⟩
      rw [Layer.raise_id, id_of_layer? hp]
    · rw [Layer.raise_parent] at hq
      obtain ⟨hlt, k, hk, rfl⟩ := h.older l hl q hq
      exact ⟨l.raise_id parent ▸ hlt, k.raise parent, raise_mem_graft hk, k.raise_id parent⟩
  case tally => exact fun m hm => h.tally_graft hparent hm
  case owned =>
    intro o i
    have howners : (t.graft x parent).owners = (x.id, t.nextId) :: t.owners := rfl
    rw [howners, List.mem_cons, h.owned]
    constructor
    · rintro (hoi | ⟨l, hl, rfl, rfl⟩)
      · obtain ⟨rfl, rfl⟩ := Prod.mk.inj hoi
        exact ⟨_, mem_graft.2 (Or.inl rfl), rfl, rfl⟩
      · exact ⟨l.raise parent, raise_mem_graft hl, l.raise_id parent, l.raise_owner parent⟩
    · rintro ⟨m, hm, rfl, rfl⟩
      rcases mem_graft.1 hm with rfl | ⟨l, hl, rfl⟩
      · exact Or.inl rfl
      · exact Or.inr ⟨l, hl, (l.raise_id parent).symm, (l.raise_owner parent).symm⟩
  case single =>
    -- the object of the new layer owned none before
    intro m hm m' hm' ho
    rcases mem_graft.1 hm with rfl | ⟨l, hl, rfl⟩
    · rcases mem_graft.1 hm' with rfl | ⟨l', hl', rfl⟩
      · rfl
      · rw [Layer.raise_owner] at ho
        exact absurd ho.symm (hnew l' hl')
    · rw [Layer.raise_owner] at ho
      rcases mem_graft.1 hm' with rfl | ⟨l', hl', rfl⟩
      · exact absurd ho (hnew l hl)
      · rw [Layer.raise_owner] at ho
        rw [Layer.raise_id, Layer.raise_id]
        exact h.single l hl l' hl' ho

/-! ## A run of grafts -/

/-- Objects without a layer and without an identity twice. -/
structure Bare (t : LayerTree) (xs : List Link) : Prop where
  /-- None of them has a layer. -/
  layerless : ∀ x ∈ xs, t.layerOf? x.id = none
  /-- No two have one identity. -/
  distinct : xs.Pairwise fun x y => x.id ≠ y.id

lemma Bare.head (h : t.Bare (x :: xs)) : t.layerOf? x.id = none :=
  h.layerless x List.mem_cons_self

/-- The objects that are still to come have no layer after the graft for the first. -/
lemma Bare.graft (h : t.Bare (x :: xs)) (parent : LayerId) : (t.graft x parent).Bare xs where
  layerless := by
    intro y hy
    have hne := (List.pairwise_cons.1 h.distinct).1 y hy
    rw [layerOf?_graft, if_neg hne.symm]
    exact h.layerless y (List.mem_cons_of_mem _ hy)
  distinct := (List.pairwise_cons.1 h.distinct).2

/-- At each of a run of grafts the layer below is there. -/
def Supported (t : LayerTree) (parent : LayerId) : List Link → Prop
  | [] => True
  | x :: rest =>
    (∃ l, t.layer? parent = some l) ∧ (t.graft x parent).Supported t.nextId rest

lemma WellFormed.supported (h : t.WellFormed root) {p : Layer} (hp : t.layer? parent = some p)
    (hxs : t.Bare xs) : t.Supported parent xs := by
  induction xs generalizing t parent p with
  | nil => trivial
  | cons x rest ih =>
    refine ⟨⟨p, hp⟩, ?_⟩
    exact ih (h.graft hp hxs.head) (layer?_graft_self t x parent) (hxs.graft parent)

/-- A run of grafts onto a layer that is there, for objects without layers. -/
lemma WellFormed.graftAll (h : t.WellFormed root) {p : Layer} (hp : t.layer? parent = some p)
    (hxs : t.Bare xs) : (t.graftAll parent xs).state.WellFormed root := by
  induction xs generalizing t parent p with
  | nil => exact h
  | cons x rest ih =>
    have hstep := h.graft hp hxs.head
    exact ih hstep (layer?_graft_self t x parent) (hxs.graft parent)

lemma count_graftAll (t : LayerTree) (parent : LayerId) (xs : List Link) :
    (t.graftAll parent xs).state.count = t.count + xs.length := by
  induction xs generalizing t parent with
  | nil => rfl
  | cons x rest ih =>
    have hrest := ih (t.graft x parent) t.nextId
    rw [count_graft] at hrest
    rw [List.length_cons, Nat.add_comm rest.length, ← Nat.add_assoc]
    exact hrest

/-- A run of grafts for some objects and then for one more. -/
lemma graftAll_concat (t : LayerTree) (parent : LayerId) (xs : List Link) (x : Link) :
    (t.graftAll parent (xs ++ [x])).state =
        (t.graftAll parent xs).state.graft x (t.graftAll parent xs).result ∧
      (t.graftAll parent (xs ++ [x])).result = (t.graftAll parent xs).state.nextId := by
  induction xs generalizing t parent with
  | nil => exact ⟨rfl, rfl⟩
  | cons y rest ih => exact ih (t.graft y parent) t.nextId

/-! ## Where the tree grows -/

lemma survey_of_owned (h : t.layerOf? x.id = some i) (pending rest : List Link) :
    t.survey pending (x :: rest) = ⟨pending, i, none⟩ := by
  rw [survey, h]

lemma survey_of_repeated (h : t.layerOf? x.id = none) (hseen : ∃ y ∈ pending, y.id = x.id)
    (rest : List Link) : t.survey pending (x :: rest) = ⟨pending, .root, some x.id⟩ := by
  rw [survey, h]
  exact if_pos (by simpa using hseen)

lemma survey_of_new (h : t.layerOf? x.id = none) (hnew : ∀ y ∈ pending, y.id ≠ x.id)
    (rest : List Link) : t.survey pending (x :: rest) = t.survey (x :: pending) rest := by
  rw [survey, h]
  exact if_neg (by simpa using hnew)

/-- Why a walk along a chain ends, when the objects in `pending` were passed and those in `rest`
are still to come: it gives the layer to grow from, and the identity that was met again. -/
inductive Stop (t : LayerTree) (pending : List Link) :
    List Link → LayerId → Option ObjectId → Prop
  /-- The chain has come to its end. -/
  | finished : Stop t pending [] .root none
  /-- The next object has a layer. -/
  | owned {x : Link} {i : LayerId} (rest : List Link) (h : t.layerOf? x.id = some i) :
    Stop t pending (x :: rest) i none
  /-- The next object has an identity that was passed. -/
  | repeated {x : Link} (rest : List Link) (h : t.layerOf? x.id = none)
    (hmem : ∃ y ∈ pending, y.id = x.id) : Stop t pending (x :: rest) .root (some x.id)

/-- What a walk along a chain finds. -/
structure Surveyed (t : LayerTree) (pending links : List Link) (s : Site) : Prop where
  /-- The objects found have no layer. -/
  bare : t.Bare s.pending
  /-- They are a first part of the chain, the last of it first, after those passed before. -/
  split : ∃ passed rest, links = passed ++ rest ∧ s.pending = passed.reverse ++ pending ∧
    Stop t s.pending rest s.anchor s.repeated

lemma surveyed (h : t.Bare pending) (links : List Link) :
    Surveyed t pending links (t.survey pending links) := by
  induction links generalizing pending with
  | nil => exact ⟨h, [], [], rfl, rfl, .finished⟩
  | cons x rest ih =>
    cases hx : t.layerOf? x.id with
    | some i =>
      rw [survey_of_owned hx]
      exact ⟨h, [], x :: rest, rfl, rfl, .owned rest hx⟩
    | none =>
      by_cases hseen : ∃ y ∈ pending, y.id = x.id
      · rw [survey_of_repeated hx hseen]
        exact ⟨h, [], x :: rest, rfl, rfl, .repeated rest hx hseen⟩
      · have hnew : ∀ y ∈ pending, y.id ≠ x.id := fun y hy hid => hseen ⟨y, hy, hid⟩
        have hbare : t.Bare (x :: pending) := by
          refine ⟨?_, List.pairwise_cons.2 ⟨fun y hy => Ne.symm (hnew y hy), h.distinct⟩⟩
          intro y hy
          rcases List.mem_cons.1 hy with rfl | hy
          · exact hx
          · exact h.layerless y hy
        obtain ⟨hsite, passed, rest', hlinks, hpending, hstop⟩ := ih hbare
        rw [survey_of_new hx hnew]
        refine ⟨hsite, x :: passed, rest', ?_, ?_, hstop⟩
        · rw [hlinks, List.cons_append]
        · rw [hpending, List.reverse_cons, List.append_assoc, List.singleton_append]

lemma bare_nil (t : LayerTree) : t.Bare [] := ⟨by simp, .nil⟩

/-- The layer that a walk leads to is there. -/
lemma WellFormed.layer?_of_stop (h : t.WellFormed root) {rest : List Link}
    {again : Option ObjectId} (hstop : Stop t pending rest i again) : ∃ l, t.layer? i = some l := by
  obtain ⟨base, hbase, -⟩ := h.layer?_root
  cases hstop with
  | finished => exact ⟨base, hbase⟩
  | owned rest ho =>
    obtain ⟨l, hl, -⟩ := h.layer?_of_layerOf? ho
    exact ⟨l, hl⟩
  | repeated rest _ _ => exact ⟨base, hbase⟩

/-- The layer where the tree begins to grow is there. -/
lemma WellFormed.anchor_exists (h : t.WellFormed root) (links : List Link) :
    ∃ l, t.layer? (t.survey [] links).anchor = some l := by
  obtain ⟨-, passed, rest, -, -, hstop⟩ := surveyed t.bare_nil links
  exact h.layer?_of_stop hstop

/-- What was passed before a walk is among what has been passed after it. -/
lemma mem_survey_of_mem {y : Link} (hy : y ∈ pending) (t : LayerTree) (links : List Link) :
    y ∈ (t.survey pending links).pending := by
  induction links generalizing pending with
  | nil => exact hy
  | cons x rest ih =>
    rw [survey]
    split
    · exact hy
    · split
      · exact hy
      · exact ih (List.mem_cons_of_mem _ hy)

/-- What was passed before a walk has no bearing on it if nothing of that is met again. -/
lemma survey_append {passed : List Link} (h : ∀ y ∈ passed, ∀ x ∈ links, y.id ≠ x.id)
    (t : LayerTree) (pending : List Link) :
    t.survey (pending ++ passed) links = ⟨(t.survey pending links).pending ++ passed,
      (t.survey pending links).anchor, (t.survey pending links).repeated⟩ := by
  induction links generalizing pending with
  | nil => rfl
  | cons x rest ih =>
    cases hx : t.layerOf? x.id with
    | some i => rw [survey_of_owned hx, survey_of_owned hx]
    | none =>
      by_cases hseen : ∃ y ∈ pending, y.id = x.id
      · obtain ⟨y, hy, hid⟩ := hseen
        rw [survey_of_repeated hx ⟨y, hy, hid⟩,
          survey_of_repeated hx ⟨y, List.mem_append_left _ hy, hid⟩]
      · have hnew : ∀ y ∈ pending, y.id ≠ x.id := fun y hy hid => hseen ⟨y, hy, hid⟩
        have hnew' : ∀ y ∈ pending ++ passed, y.id ≠ x.id := by
          intro y hy
          rcases List.mem_append.1 hy with hy | hy
          · exact hnew y hy
          · exact h y hy x List.mem_cons_self
        rw [survey_of_new hx hnew, survey_of_new hx hnew']
        exact ih (fun y hy z hz => h y hy z (List.mem_cons_of_mem _ hz)) (x :: pending)

/-- An object without a layer that is not met again comes after all others that need one. -/
lemma survey_cons (hx : t.layerOf? x.id = none) (hnew : ∀ y ∈ links, x.id ≠ y.id) :
    t.survey [] (x :: links) = ⟨(t.survey [] links).pending ++ [x], (t.survey [] links).anchor,
      (t.survey [] links).repeated⟩ := by
  rw [survey_of_new hx (by simp)]
  exact survey_append (by simpa using hnew) t []

lemma nearestFrom_eq_anchor (t : LayerTree) (pending links : List Link) :
    t.nearestFrom (pending.map (·.id)) links = (t.survey pending links).anchor := by
  induction links generalizing pending with
  | nil => rfl
  | cons x rest ih =>
    rw [nearestFrom]
    cases hx : t.layerOf? x.id with
    | some i => rw [survey_of_owned hx]
    | none =>
      by_cases hseen : ∃ y ∈ pending, y.id = x.id
      · rw [survey_of_repeated hx hseen]
        exact if_pos (List.mem_map.2 hseen)
      · rw [survey_of_new hx fun y hy hid => hseen ⟨y, hy, hid⟩, ← ih (x :: pending)]
        exact if_neg fun hmem => hseen (List.mem_map.1 hmem)

/-- The nearest layer is the one that the tree would grow from. -/
lemma nearest_eq_anchor (t : LayerTree) (c : Chain) :
    t.nearest c = (t.survey [] c.links).anchor :=
  nearestFrom_eq_anchor t [] c.links

lemma WellFormed.grow (h : t.WellFormed root) (c : Chain) : (t.grow c).state.WellFormed root := by
  obtain ⟨p, hp⟩ := h.anchor_exists c.links
  exact h.graftAll hp (surveyed t.bare_nil c.links).bare

lemma WellFormed.ensure (h : t.WellFormed root) (ended : Lease → Bool) (c : Chain) :
    (t.ensure ended c).state.WellFormed root :=
  (h.tidy ended).grow c

/-- An object without a layer is passed first, so its layer is made last. -/
lemma pending_eq_concat {c : Chain} (hself : t.layerOf? c.self.id = none) :
    ∃ xs, (t.survey [] c.links).pending = xs ++ [c.self] := by
  have hbare : t.Bare [c.self] := ⟨by simpa using hself, List.pairwise_singleton _ _⟩
  obtain ⟨-, passed, rest, -, hpending, -⟩ := surveyed hbare c.above
  have hsite : t.survey [] c.links = t.survey [c.self] c.above :=
    survey_of_new hself (by simp) c.above
  exact ⟨passed.reverse, hsite ▸ hpending⟩

/-- After growing, the object has the layer that was given. -/
lemma layerOf?_grow (t : LayerTree) (c : Chain) :
    (t.grow c).state.layerOf? c.self.id = some (t.grow c).result := by
  cases hself : t.layerOf? c.self.id with
  | some i =>
    rw [LayerTree.grow, Chain.links, survey_of_owned hself]
    exact hself
  | none =>
    obtain ⟨xs, hpending⟩ := pending_eq_concat hself
    obtain ⟨hstate, hresult⟩ := graftAll_concat t (t.survey [] c.links).anchor xs c.self
    rw [← hpending] at hstate hresult
    change (t.graftAll _ (t.survey [] c.links).pending).state.layerOf? c.self.id =
      some (t.graftAll _ (t.survey [] c.links).pending).result
    rw [hstate, hresult, layerOf?_graft, if_pos rfl]

lemma layerOf?_ensure (t : LayerTree) (ended : Lease → Bool) (c : Chain) :
    (t.ensure ended c).state.layerOf? c.self.id = some (t.ensure ended c).result :=
  layerOf?_grow (t.tidy ended) c

/-- The layer that is given to an object is there, and belongs to it. -/
lemma WellFormed.layer?_ensure (h : t.WellFormed root) (ended : Lease → Bool) (c : Chain) :
    ∃ l, (t.ensure ended c).state.layer? (t.ensure ended c).result = some l ∧
      l.owner = c.self.id :=
  (h.ensure ended c).layer?_of_layerOf? (layerOf?_ensure t ended c)

/-! ## Growing along a chain

Along a chain without an identity twice, an object that has no layer is grafted onto the layer that
growing along the rest of the chain leads to. -/

/-- What `grow` does along the objects of a chain. -/
def growAlong (t : LayerTree) (links : List Link) : Outcome LayerTree LayerId :=
  t.graftAll (t.survey [] links).anchor (t.survey [] links).pending

lemma growAlong_of_owned (hx : t.layerOf? x.id = some i) (links : List Link) :
    t.growAlong (x :: links) = ⟨t, i, []⟩ := by
  rw [growAlong, survey_of_owned hx]
  rfl

lemma growAlong_of_new (hx : t.layerOf? x.id = none) (hnew : ∀ y ∈ links, x.id ≠ y.id) :
    (t.growAlong (x :: links)).state =
        (t.growAlong links).state.graft x (t.growAlong links).result ∧
      (t.growAlong (x :: links)).result = (t.growAlong links).state.nextId := by
  simp only [growAlong, survey_cons hx hnew]
  exact graftAll_concat t _ _ x

lemma layerOf?_graftAll {o : ObjectId} (ho : ∀ y ∈ xs, y.id ≠ o) (t : LayerTree)
    (parent : LayerId) : (t.graftAll parent xs).state.layerOf? o = t.layerOf? o := by
  induction xs generalizing t parent with
  | nil => rfl
  | cons x rest ih =>
    have hx : o ≠ x.id := Ne.symm (ho x List.mem_cons_self)
    have hrest := ih (fun y hy => ho y (List.mem_cons_of_mem _ hy)) (t.graft x parent) t.nextId
    rw [layerOf?_graft, if_neg hx] at hrest
    exact hrest

/-- Growing along a chain gives layers to its objects only. -/
lemma layerOf?_growAlong (t : LayerTree) {o : ObjectId} (ho : ∀ y ∈ links, y.id ≠ o) :
    (t.growAlong links).state.layerOf? o = t.layerOf? o := by
  obtain ⟨-, passed, rest, hlinks, hpending, -⟩ := surveyed t.bare_nil links
  refine layerOf?_graftAll (fun y hy => ho y ?_) t _
  rw [hpending, List.append_nil, List.mem_reverse] at hy
  exact hlinks ▸ List.mem_append_left _ hy

/-! ## What the entries of all layers have in common -/

section Entries

variable {Q : Entries → Prop}

lemma forall_entries_tidy (h : ∀ l ∈ t.layers, Q l.entries) (ended : Lease → Bool) :
    ∀ l ∈ (t.tidy ended).layers, Q l.entries := by
  intro m hm
  rw [LayerTree.tidy] at hm
  split at hm
  · obtain ⟨l, hl, n, rfl⟩ := mem_keep hm
    exact h l hl
  · exact h m hm

/-- New layers are empty. -/
lemma forall_entries_graftAll (hempty : Q .empty) (h : ∀ l ∈ t.layers, Q l.entries)
    (parent : LayerId) (xs : List Link) : ∀ l ∈ (t.graftAll parent xs).state.layers, Q l.entries := by
  induction xs generalizing t parent with
  | nil => exact h
  | cons x rest ih =>
    refine ih (t := t.graft x parent) (fun m hm => ?_) t.nextId
    rcases mem_graft.1 hm with rfl | ⟨l, hl, rfl⟩
    · exact hempty
    · rw [Layer.raise_entries]
      exact h l hl

lemma forall_entries_ensure (hempty : Q .empty) (h : ∀ l ∈ t.layers, Q l.entries)
    (ended : Lease → Bool) (c : Chain) : ∀ l ∈ (t.ensure ended c).state.layers, Q l.entries :=
  forall_entries_graftAll hempty (forall_entries_tidy h ended) _ _

lemma forall_entries_setEntries (h : ∀ l ∈ t.layers, Q l.entries) (i : LayerId) {e : Entries}
    (he : Q e) : ∀ l ∈ (t.setEntries i e).layers, Q l.entries := by
  intro m hm
  obtain ⟨l, hl, rfl⟩ := List.mem_map.1 hm
  split
  · exact he
  · exact h l hl

lemma entriesOf_of_forall (hempty : Q .empty) (h : ∀ l ∈ t.layers, Q l.entries) (i : LayerId) :
    Q (t.entriesOf i) := by
  rw [entriesOf]
  split
  · next l hl => exact h l (mem_of_layer? hl)
  · exact hempty

end Entries

end LayerTree

end Glossary
