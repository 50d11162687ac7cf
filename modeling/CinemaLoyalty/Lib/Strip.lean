import Mathlib.Data.List.DropRight

/-! @lib Strip | scheme:two-ended-drop | layer:library

    What satisfies a predicate dropped from both ends of a list. Stripping twice is stripping once,
    and an encoding of each element by units of its own kind can be stripped before or after. -/

namespace Strip
variable {α β : Type} {p : α → Bool} {q : β → Bool} {f : α → List β} {l : List α}

/-- The list without what satisfies `p` at its two ends. -/
def strip (p : α → Bool) (l : List α) : List α := (l.dropWhile p).rdropWhile p

theorem dropWhile_self (h : ∀ a ∈ l, p a = false) : l.dropWhile p = l := by
  cases l with
  | nil => rfl
  | cons a l => exact List.dropWhile_cons_of_neg (by simp [h a List.mem_cons_self])

/-- Where nothing satisfies the predicate nothing is dropped. -/
theorem strip_self (h : ∀ a ∈ l, p a = false) : strip p l = l := by
  unfold strip
  rw [dropWhile_self h, List.rdropWhile, dropWhile_self fun a ha => h a (List.mem_reverse.1 ha),
    List.reverse_reverse]

/-- Dropping from the end leaves the start as it is. -/
theorem dropWhile_rdropWhile (p : α → Bool) (l : List α) (h : l.dropWhile p = l) :
    (l.rdropWhile p).dropWhile p = l.rdropWhile p := by
  obtain ⟨t, ht⟩ := List.rdropWhile_prefix p l
  cases hr : l.rdropWhile p with
  | nil => rfl
  | cons a r =>
    rw [hr] at ht
    have hstart : ¬p a = true := by
      rw [← ht] at h
      exact List.dropWhile_eq_self_iff.1 h (Nat.succ_pos _)
    exact List.dropWhile_cons_of_neg hstart

theorem strip_idem (p : α → Bool) (l : List α) : strip p (strip p l) = strip p l := by
  unfold strip
  rw [dropWhile_rdropWhile p _ (List.dropWhile_idempotent p l), List.rdropWhile_idempotent]

/-- Every unit of an element is of the element's kind. -/
structure Uniform (p : α → Bool) (q : β → Bool) (f : α → List β) : Prop where
  units (a : α) : ∀ b ∈ f a, q b = p a
  nonempty (a : α) : f a ≠ []

theorem Uniform.reverse (h : Uniform p q f) : Uniform p q (List.reverse ∘ f) where
  units a b hb := h.units a b (List.mem_reverse.1 hb)
  nonempty a := by simpa using h.nonempty a

theorem dropWhile_flatMap (h : Uniform p q f) (l : List α) :
    (l.flatMap f).dropWhile q = (l.dropWhile p).flatMap f := by
  induction l with
  | nil => rfl
  | cons a l ih =>
    rw [List.flatMap_cons]
    cases ha : p a with
    | true =>
      have hdrop : ∀ b ∈ f a, q b = true := fun b hb => (h.units a b hb).trans ha
      rw [List.dropWhile_append_of_pos hdrop, ih, List.dropWhile_cons_of_pos ha]
    | false =>
      obtain ⟨b, bs, hbs⟩ := List.exists_cons_of_ne_nil (h.nonempty a)
      have hkeep : ¬q b = true := by
        rw [h.units a b (by simp [hbs]), ha]
        exact Bool.false_ne_true
      rw [List.dropWhile_cons_of_neg (by simp [ha]), List.flatMap_cons, hbs, List.cons_append,
        List.dropWhile_cons_of_neg hkeep]

/-- Stripping the encoding is encoding what is stripped. -/
theorem strip_flatMap (h : Uniform p q f) (l : List α) :
    strip q (l.flatMap f) = (strip p l).flatMap f := by
  unfold strip List.rdropWhile
  rw [dropWhile_flatMap h, List.reverse_flatMap, dropWhile_flatMap h.reverse, List.reverse_flatMap]
  simp only [Function.comp_def, List.reverse_reverse]

end Strip
