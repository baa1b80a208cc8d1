import Glossary.Proofs.Layer.Succession
import Glossary.Proofs.Layer.Reachable
import Mathlib.Algebra.Ring.Nat

/-!
# Events account for the tree

`Tells` says what each kind of event has to do with the tree of layers: which tree it finds and which
tree it leaves.  Most events leave the tree alone; a tree changes only when layers are removed, when
a layer is grafted and when a pair is written or removed, and each of these is reported.  `Recounts`
is a row of events that leads from one tree to another, so that every event has its moment.

What can be counted in a tree can therefore be counted in the events: the number of layers and the
number that the next layer gets.
-/

namespace Glossary

namespace Event

/-- Whether a layer was grafted. -/
def isGraft : Event → Bool
  | grafted _ _ _ => true
  | _ => false

/-- How many layers were removed. -/
def reclaimed : Event → Nat
  | pruned n _ => n
  | _ => 0

end Event

namespace LayerTree

variable {root : ObjectId} {ended : Lease → Bool} {t u v : LayerTree} {e : Event} {es fs : List Event}

/-- An event is reported when it makes one tree out of another, or finds a tree and leaves it as it
is. -/
inductive Tells (ended : Lease → Bool) (t : LayerTree) : Event → LayerTree → Prop
  /-- A lexicon was made. -/
  | started (root : ObjectId) (aliases : Nat) : Tells ended t (.started root aliases) t
  /-- Settings were read. -/
  | settingsRead (aliases standard : Nat) : Tells ended t (.settingsRead aliases standard) t
  /-- Pruning was due, and layers were removed. -/
  | pruned (h : t.pruneDue = true) :
    Tells ended t (.pruned (t.count - (t.prune ended).count) (t.prune ended).count) (t.prune ended)
  /-- An object without a layer received one, on a layer that is there. -/
  | grafted {x : Link} {parent : LayerId} {p : Layer} (hp : t.layer? parent = some p)
    (hx : t.layerOf? x.id = none) : Tells ended t (.grafted x.id t.nextId parent) (t.graft x parent)
  /-- A chain came back to itself. -/
  | cycle (o : ObjectId) : Tells ended t (.cycle o) t
  /-- A pair is about to give way. -/
  | displaced (o : ObjectId) (language evicted target : String) :
    Tells ended t (.displaced o language evicted target) t
  /-- A pair was written to the layer of an object. -/
  | paired {o : ObjectId} {i : LayerId} (h : t.layerOf? o = some i) (language source target : String) :
    Tells ended t (.paired o language source target)
      (t.setEntries i ((t.entriesOf i).pair language source target).entries)
  /-- A pair was removed from the layer of an object, where it was. -/
  | unpaired {o : ObjectId} {i : LayerId} (h : t.layerOf? o = some i)
    {language source target : String}
    (hpair : (t.entriesOf i).get? (.forward language source) = some target) :
    Tells ended t (.unpaired o language source target)
      (t.setEntries i ((t.entriesOf i).unpair language source target))
  /-- A key was found. -/
  | resolved {k : Key} {i : LayerId} {s : Supply} (h : t.resolve? i k = some s) :
    Tells ended t (.resolved k i s.layer) t
  /-- A key was asked of something without layers. -/
  | foreign (k : Key) : Tells ended t (.foreign k) t
  /-- An entry was passed over. -/
  | unknownTarget (path : String) : Tells ended t (.unknownTarget path) t
  /-- Standard entries were put in place. -/
  | preloaded (installed unresolved : Nat) : Tells ended t (.preloaded installed unresolved) t

/-- A row of events that leads from one tree to another. -/
inductive Recounts (ended : Lease → Bool) : LayerTree → List Event → LayerTree → Prop
  /-- Nothing more is reported, and nothing more happens. -/
  | done (t : LayerTree) : Recounts ended t [] t
  /-- The first event leads from the first tree to the next. -/
  | step {t u v : LayerTree} {e : Event} {es : List Event} (h : Tells ended t e u)
    (hrest : Recounts ended u es v) : Recounts ended t (e :: es) v

/-! ## One event -/

namespace Tells

lemma happens (h : Tells ended t e u) : Happens ended t u := by
  cases h with
  | pruned hdue => exact .prune hdue
  | grafted hp hx => exact .graft hp hx
  | paired _ _ _ _ => exact .write _ _
  | unpaired _ _ => exact .write _ _
  | _ => exact .nothing

/-- The number of layers goes up with a grafted layer and down by those that are removed. -/
lemma count_eq (h : Tells ended t e u) :
    u.count + e.reclaimed = t.count + if e.isGraft then 1 else 0 := by
  cases h with
  | pruned hdue => exact Nat.add_sub_cancel' (count_prune_le ended t)
  | _ => simp [Event.reclaimed, Event.isGraft]

/-- A grafted layer gets the next number, and nothing else uses up numbers. -/
lemma nextId_eq (h : Tells ended t e u) :
    u.nextId = t.nextId + if e.isGraft then 1 else 0 := by
  cases h <;> rfl

end Tells

/-! ## Rows of events -/

namespace Recounts

lemma append (h : Recounts ended t es u) (h' : Recounts ended u fs v) :
    Recounts ended t (es ++ fs) v := by
  induction h with
  | done t => exact h'
  | step hstep _ ih => exact .step hstep (ih h')

lemma single (h : Tells ended t e u) : Recounts ended t [e] u :=
  .step h (.done u)

/-- Every event of a row has its moment. -/
lemma moment (h : Recounts ended t (es ++ e :: fs) v) :
    ∃ s u, Recounts ended t es s ∧ Tells ended s e u ∧ Recounts ended u fs v := by
  induction es generalizing t with
  | nil =>
    obtain _ | ⟨hstep, hrest⟩ := h
    exact ⟨t, _, .done t, hstep, hrest⟩
  | cons f es ih =>
    obtain _ | ⟨hstep, hrest⟩ := h
    obtain ⟨s, u, hbefore, hmoment, hafter⟩ := ih hrest
    exact ⟨s, u, .step hstep hbefore, hmoment, hafter⟩

lemma wellFormed (h : Recounts ended t es u) (hwf : t.WellFormed root) : u.WellFormed root := by
  induction h with
  | done t => exact hwf
  | step hstep _ ih => exact ih (hstep.happens.wellFormed hwf)

lemma count_eq (h : Recounts ended t es u) :
    u.count + (es.map Event.reclaimed).sum = t.count + es.countP Event.isGraft := by
  induction h with
  | done t => rfl
  | @step t u v e es hstep _ ih =>
    have hone := hstep.count_eq
    rw [List.map_cons, List.sum_cons, List.countP_cons]
    omega

lemma nextId_eq (h : Recounts ended t es u) : u.nextId = t.nextId + es.countP Event.isGraft := by
  induction h with
  | done t => rfl
  | @step t u v e es hstep _ ih =>
    rw [ih, hstep.nextId_eq, List.countP_cons, Nat.add_assoc, Nat.add_comm (List.countP _ _)]

end Recounts

/-! ## What an event says -/

/-- A layer is removed or it stays. -/
lemma Thinned.count_eq (hthin : Thinned ended t u) (h : t.WellFormed root) (h' : u.WellFormed root) :
    u.count + (t.layers.countP fun l => (u.layer? l.id).isNone) = t.count := by
  -- the layers that stay have the numbers of the layers that are left
  have hperm : ((t.layers.filter fun l => (u.layer? l.id).isSome).map (·.id)).Perm
      (u.layers.map (·.id)) := by
    refine (List.perm_ext_iff_of_nodup ?_ h'.nodup_ids).2 fun i => ?_
    · exact h.nodup_ids.sublist (List.filter_sublist.map _)
    simp only [List.mem_map, List.mem_filter, Option.isSome_iff_exists]
    constructor
    · rintro ⟨l, ⟨-, m, hm⟩, rfl⟩
      exact ⟨m, mem_of_layer? hm, id_of_layer? hm⟩
    · rintro ⟨m, hm, rfl⟩
      obtain ⟨l, n, hl, -⟩ := hthin.stays m.id m (h'.layer?_id hm)
      have hid := id_of_layer? hl
      exact ⟨l, ⟨mem_of_layer? hl, m, hid ▸ h'.layer?_id hm⟩, hid⟩
  have hstay := hperm.length_eq
  rw [List.length_map, List.length_map, ← List.countP_eq_length_filter] at hstay
  rw [count, count, ← hstay,
    t.layers.length_eq_countP_add_countP fun l => (u.layer? l.id).isSome]
  simp only [decide_not, Bool.decide_eq_true, Option.not_isSome]

end LayerTree

/-- What an event says is so: it is reported between two trees, when so many layers had been
grafted before. -/
def Event.Holds (made : Nat) (t u : LayerTree) : Event → Prop
  -- the layer has the next number, and the one below it is there
  | grafted o i parent =>
    i = made + 1 ∧ (∃ p, t.layer? parent = some p) ∧ t.layer? i = none ∧
      ∃ l, u.layer? i = some l ∧ l.owner = o ∧ l.parent = some parent
  -- so many layers are there no more, and so many are left
  | pruned reclaimed live =>
    live = u.count ∧ reclaimed = t.layers.countP fun l => (u.layer? l.id).isNone
  -- the owner is the first layer on the way to the root that has the key
  | resolved k i owner =>
    u = t ∧ ∃ nearer m farther, t.FallsBack i (nearer ++ m :: farther) ∧ t.layer? owner = some m ∧
      (∃ value, m.entries.get? k = some value) ∧ ∀ n ∈ nearer, n.entries.get? k = none
  | _ => True

namespace LayerTree

variable {root : ObjectId} {ended : Lease → Bool} {t u v : LayerTree} {e : Event} {es : List Event}

lemma Tells.holds (h : Tells ended t e u) (hwf : t.WellFormed root) {made : Nat}
    (hmade : t.nextId = made + 1) : e.Holds made t u := by
  cases h with
  | pruned hdue =>
    have hthin : Thinned ended t (t.prune ended) := hwf.thinned_prune
    have hlost := hthin.count_eq hwf hwf.prune
    exact ⟨rfl, by omega⟩
  | @grafted x parent p hp hx =>
    refine ⟨hmade, ⟨p, hp⟩, ?_, _, layer?_graft_self t x parent, rfl, rfl⟩
    refine layer?_eq_none_iff.2 fun l hl => ?_
    exact Nat.ne_of_lt (hwf.fresh l hl)
  | @resolved k i s hs =>
    obtain ⟨nearer, m, farther, hsplit, hid, hvalue, hnearer⟩ :=
      (t.resolve?_eq_some_iff i k s.layer s.value).1 hs
    obtain ⟨l, hl⟩ := hwf.layer?_of_resolve? hs
    have hmem : m ∈ t.lineage i := by
      rw [hsplit]
      exact List.mem_append_right _ List.mem_cons_self
    have hm := hwf.layer?_id ((lineageIn_sublist _ _).subset hmem)
    exact ⟨rfl, nearer, m, farther, hsplit ▸ hwf.fallsBack i l hl, hid ▸ hm, ⟨s.value, hvalue⟩,
      hnearer⟩
  | _ => trivial

/-! ## What is reported when an object is given a layer -/

lemma recounts_tidy (ended : Lease → Bool) (t : LayerTree) :
    Recounts ended t (t.tidyEvents ended) (t.tidy ended) := by
  rw [tidyEvents, tidy]
  split
  · next hdue => exact .single (.pruned hdue)
  · exact .done t

lemma WellFormed.recounts_graftAll (h : t.WellFormed root) {parent : LayerId} {p : Layer}
    (hp : t.layer? parent = some p) {xs : List Link} (hxs : t.Bare xs) (ended : Lease → Bool) :
    Recounts ended t (t.graftAll parent xs).events (t.graftAll parent xs).state := by
  induction xs generalizing t parent p with
  | nil => exact .done t
  | cons x rest ih =>
    have hrest := ih (h.graft hp hxs.head) (layer?_graft_self t x parent) (hxs.graft parent)
    exact .step (.grafted hp hxs.head) hrest

lemma recounts_cycle (ended : Lease → Bool) (t : LayerTree) (o : Option ObjectId) :
    Recounts ended t (o.map Event.cycle).toList t := by
  cases o with
  | none => exact .done t
  | some o => exact .single (.cycle o)

lemma WellFormed.recounts_ensure (h : t.WellFormed root) (ended : Lease → Bool) (c : Chain) :
    Recounts ended t (t.ensure ended c).events (t.ensure ended c).state := by
  have htidy := h.tidy ended
  obtain ⟨p, hp⟩ := htidy.anchor_exists c.links
  have hgraft := htidy.recounts_graftAll hp (surveyed (bare_nil _) c.links).bare ended
  exact (recounts_tidy ended t).append ((recounts_cycle ended _ _).append hgraft)

lemma recounts_resolve (ended : Lease → Bool) (t : LayerTree) (i : LayerId) (k : Key) :
    Recounts ended t (resolveEvents i k (t.resolve? i k)) t := by
  cases hs : t.resolve? i k with
  | none => exact .done t
  | some s => exact .single (.resolved hs)

end LayerTree

end Glossary
