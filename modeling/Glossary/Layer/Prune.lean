import Glossary.Layer.Tree

/-!
# Pruning

A layer whose owner's lease has ended is removed, unless another layer that stays falls back
to it.  Since children are newer than their parents, one pass from the newest layer to the
oldest decides all of them.  Pruning is due when the number of layers has reached a bound,
which is then set to twice the number of layers that stayed, so that it happens rarely.

Pruning is the sweep of the stores: `prune` is `sweep`, `isIdle` is `is_reclaimable`, and the bound
`pruneAt` is `sweep_at`, never below `MIN_SWEEP_THRESHOLD`.
-/

namespace Glossary

namespace Layer

/-- Whether the owner's lease has ended. -/
def isEnded (ended : Lease → Bool) (l : Layer) : Bool := l.lease.any ended

/-- The layer when so many of those that fall back to it were removed. -/
def release (l : Layer) (n : Nat) : Layer := { l with heirs := l.heirs - n }

/-- Whether a layer can be removed. -/
def isIdle (ended : Lease → Bool) (l : Layer) : Bool := l.heirs = 0 && l.isEnded ended

end Layer

namespace LayerTree

/-- The layers that stay, of layers that are listed newest first, when the layers in `freed`
have each lost a child. -/
def keep (ended : Lease → Bool) (freed : List LayerId) : List Layer → List Layer
  | [] => []
  | l :: older =>
    let l := l.release (freed.count l.id)
    if l.isIdle ended then keep ended (l.parent.toList ++ freed) older
    else l :: keep ended freed older

theorem length_keep_le (ended : Lease → Bool) (freed : List LayerId) (ls : List Layer) :
    (keep ended freed ls).length ≤ ls.length := by
  induction ls generalizing freed with
  | nil => simp [keep]
  | cons l older ih =>
    simp only [keep]
    split
    · exact Nat.le_trans (ih _) (Nat.le_succ _)
    · simpa using ih freed

/-- Removes the layers whose owners are gone. -/
def prune (ended : Lease → Bool) (t : LayerTree) : LayerTree :=
  let kept := keep ended [] t.layers
  { t with
    layers := kept
    owners := t.owners.filter fun r => kept.any (·.id = r.2)
    pruneAt := max leastPruneAt (2 * kept.length) }

/-- Whether pruning is due. -/
def pruneDue (t : LayerTree) : Bool := t.pruneAt ≤ t.count

/-- Prunes if that is due. -/
def tidy (ended : Lease → Bool) (t : LayerTree) : LayerTree :=
  if t.pruneDue then t.prune ended else t

theorem count_prune_le (ended : Lease → Bool) (t : LayerTree) :
    (t.prune ended).count ≤ t.count :=
  length_keep_le ended [] t.layers

/-- What is reported when pruning was due. -/
def tidyEvents (ended : Lease → Bool) (t : LayerTree) : List Event :=
  if t.pruneDue then
    let kept := (t.prune ended).count
    [.pruned (t.count - kept) kept]
  else []

end LayerTree

end Glossary
