import Glossary.Key
import Mathlib.Tactic.Lemma

/-!
# Keys with the same text

The text of a key is its language, an arrow and its name, one after the other.  Nothing is escaped, a
hyphen may end a language as well as belong to an arrow, and a name may hold arrows of its own.  What
tells the three parts apart is the first point, `<` or `>`, of the text.  A language without points
leaves it to the arrow, so it says which way the arrow leads; the language is what stands before the
arrow around it, and the name is everything after.
-/

namespace Glossary.Key

variable {k l : Key}

/-- Whether a character is the point of an arrow. -/
def isPoint (c : Char) : Bool := c = '<' || c = '>'

/-- The language of the key holds no point of an arrow. -/
def Unpointed (k : Key) : Prop := '<' ∉ k.language.toList ∧ '>' ∉ k.language.toList

instance (k : Key) : Decidable k.Unpointed := inferInstanceAs (Decidable (_ ∧ _))

/-- What stands in the text before the point of the arrow. -/
def beforePoint (k : Key) : List Char :=
  match k.direction with
  | .forward => k.language.toList ++ ['-']
  | .reverse => k.language.toList

/-- What stands in the text from the point of the arrow on. -/
def fromPoint (k : Key) : List Char :=
  match k.direction with
  | .forward => '>' :: k.name.toList
  | .reverse => '<' :: '-' :: k.name.toList

lemma toList_text (k : Key) : k.text.toList = k.beforePoint ++ k.fromPoint := by
  obtain ⟨direction, language, name⟩ := k
  cases direction <;> simp [text, Direction.arrow, beforePoint, fromPoint]

/-- The hyphen of an arrow is no point, so without points in the language there is none before that
of the arrow. -/
lemma Unpointed.not_isPoint_of_mem (h : k.Unpointed) : ∀ c ∈ k.beforePoint, !isPoint c := by
  obtain ⟨direction, language, name⟩ := k
  have hlanguage : ∀ c ∈ language.toList, !isPoint c := by
    intro c hc
    have hless : c ≠ '<' := fun heq => h.1 (heq ▸ hc)
    have hgreater : c ≠ '>' := fun heq => h.2 (heq ▸ hc)
    simp [isPoint, hless, hgreater]
  intro c hc
  cases direction with
  | forward =>
    rcases List.mem_append.1 hc with hc | hc
    · exact hlanguage c hc
    · rw [List.mem_singleton.1 hc]
      decide
  | reverse => exact hlanguage c hc

lemma takeWhile_fromPoint (k : Key) : k.fromPoint.takeWhile (!isPoint ·) = [] := by
  obtain ⟨direction, language, name⟩ := k
  cases direction <;> rfl

lemma dropWhile_fromPoint (k : Key) : k.fromPoint.dropWhile (!isPoint ·) = k.fromPoint := by
  obtain ⟨direction, language, name⟩ := k
  cases direction <;> rfl

/-- Up to its first point the text is that of language and arrow. -/
lemma Unpointed.takeWhile_text (h : k.Unpointed) :
    k.text.toList.takeWhile (!isPoint ·) = k.beforePoint := by
  rw [toList_text, List.takeWhile_append_of_pos h.not_isPoint_of_mem, takeWhile_fromPoint,
    List.append_nil]

lemma Unpointed.dropWhile_text (h : k.Unpointed) :
    k.text.toList.dropWhile (!isPoint ·) = k.fromPoint := by
  rw [toList_text, List.dropWhile_append_of_pos h.not_isPoint_of_mem, dropWhile_fromPoint]

/-- The parts around the point of the arrow make up the key. -/
lemma eq_of_around_point (hbefore : k.beforePoint = l.beforePoint)
    (hfrom : k.fromPoint = l.fromPoint) : k = l := by
  obtain ⟨direction, language, name⟩ := k
  obtain ⟨direction', language', name'⟩ := l
  cases direction <;> cases direction' <;> simp_all [beforePoint, fromPoint, String.toList_inj]

/-- **Keys whose languages hold no points are equal if they have the same text.**  Their names may
hold whatever they like, and their languages may hold hyphens, also at the end. -/
theorem text_eq_text_iff (hk : k.Unpointed) (hl : l.Unpointed) : k.text = l.text ↔ k = l := by
  refine ⟨fun h => eq_of_around_point ?_ ?_, fun h => h ▸ rfl⟩
  · rw [← hk.takeWhile_text, ← hl.takeWhile_text, h]
  · rw [← hk.dropWhile_text, ← hl.dropWhile_text, h]

/-- A language that ends in a hyphen and a name that begins as an arrow. -/
theorem text_eq_text_iff_hyphens :
    (forward "zh-" ">x").text ≠ (forward "zh" "->x").text ∧
      (reverse "zh-" "->x").text ≠ (forward "zh-" "->x").text := by
  constructor
  · rw [ne_eq, text_eq_text_iff (by decide) (by decide)]
    decide
  · rw [ne_eq, text_eq_text_iff (by decide) (by decide)]
    decide

-- with a point in a language the first point of the text need not be that of the arrow
example : (reverse "zh-" "->x").text = (forward "zh-<-" "x").text := by decide

end Glossary.Key
