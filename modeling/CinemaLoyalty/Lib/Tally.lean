import Mathlib.Algebra.BigOperators.Group.List.Basic
import Mathlib.Algebra.Order.BigOperators.Group.List
import Mathlib.Data.List.Perm.Basic
import Mathlib.Data.List.Induction
import Mathlib.Algebra.Order.Group.Int
import Mathlib.Algebra.Ring.Int.Defs

/-! @lib Tally | scheme:first-wins | layer:library

    Counting what is delivered in any order and any number of times. Of the deliveries with one key
    the first wins (`winners`); which keys win is a matter of membership, not of order. A meter adds
    up amounts until it reaches its target and is deaf from then on; where it ends depends on the
    amounts, not on their order (`run_perm`). -/

namespace Tally

/-! ### Meters -/

/-- A meter below its target, or one that reached it. -/
inductive Meter
  | locked (current : ℤ)
  | unlocked
  deriving DecidableEq

/-- Add an amount; the amount that reaches the target unlocks. -/
def Meter.add (target n : ℤ) : Meter → Meter
  | .locked c => if c + n < target then .locked (c + n) else .unlocked
  | .unlocked => .unlocked

/-- Add amounts in their order. -/
def Meter.run (target : ℤ) (m : Meter) (ns : List ℤ) : Meter :=
  ns.foldl (fun m n => m.add target n) m

/-- There is an amount, and a meter at `c` reaches the target by the amounts. -/
def Reaches (target c : ℤ) (ns : List ℤ) : Prop := ns ≠ [] ∧ target ≤ c + ns.sum

instance (target c : ℤ) (ns : List ℤ) : Decidable (Reaches target c ns) :=
  inferInstanceAs (Decidable (_ ∧ _))

section meters
variable {t c : ℤ} {m : Meter} {ns ks : List ℤ}

@[simp] theorem run_nil : m.run t [] = m := rfl

theorem run_cons (n : ℤ) : m.run t (n :: ns) = (m.add t n).run t ns := rfl

theorem run_append : m.run t (ns ++ ks) = (m.run t ns).run t ks := List.foldl_append ..

@[simp] theorem run_unlocked : Meter.unlocked.run t ns = .unlocked := by
  induction ns with
  | nil => rfl
  | cons n ns ih => rw [run_cons]; exact ih

@[simp] theorem reaches_nil : ¬Reaches t c [] := fun h => h.1 rfl

theorem reaches_cons {n : ℤ} : Reaches t c (n :: ns) ↔ t ≤ c + n + ns.sum := by
  simp [Reaches, add_assoc]

theorem reaches_perm (h : ns.Perm ks) : Reaches t c ns ↔ Reaches t c ks := by
  have hnil : ns = [] ↔ ks = [] := by
    rw [← List.length_eq_zero_iff, ← List.length_eq_zero_iff, h.length_eq]
  unfold Reaches
  rw [h.sum_eq]
  exact and_congr_left fun _ => not_congr hnil

/-- More amounts reach what fewer reach. -/
theorem reaches_sublist (h : ks.Sublist ns) (hn : ∀ n ∈ ns, 0 ≤ n) (hk : Reaches t c ks) :
    Reaches t c ns := by
  have hsum : ks.sum ≤ ns.sum := h.sum_le_sum hn
  have hreach := hk.2
  exact ⟨fun hnil => hk.1 (List.sublist_nil.1 (hnil ▸ h)), by omega⟩

/-- Where a locked meter ends: it unlocks as soon as the amounts reach the target. -/
theorem run_locked (hn : ∀ n ∈ ns, 0 ≤ n) : (Meter.locked c).run t ns =
    if Reaches t c ns then .unlocked else .locked (c + ns.sum) := by
  induction ns generalizing c with
  | nil => simp
  | cons n ns ih =>
    have hns : ∀ k ∈ ns, 0 ≤ k := fun k hk => hn k (List.mem_cons_of_mem _ hk)
    have hsum : 0 ≤ ns.sum := List.sum_nonneg hns
    simp only [run_cons, Meter.add, List.sum_cons, ← add_assoc, reaches_cons]
    by_cases hlt : c + n < t
    · rw [if_pos hlt, ih hns]
      cases ns with
      | nil => simp [hlt]
      | cons k ns => simp only [reaches_cons, List.sum_cons, add_assoc]
    · rw [if_neg hlt, run_unlocked, if_pos (by omega)]

/-- A locked meter unlocks when there is an amount and the target is reached. -/
theorem run_locked_unlocked (hn : ∀ n ∈ ns, 0 ≤ n) :
    (Meter.locked c).run t ns = .unlocked ↔ Reaches t c ns := by
  rw [run_locked hn]
  split <;> simp_all

/-- The order of the amounts does not matter. -/
theorem run_perm (h : ns.Perm ks) (hn : ∀ n ∈ ns, 0 ≤ n) : m.run t ns = m.run t ks := by
  cases m with
  | unlocked => rw [run_unlocked, run_unlocked]
  | locked c =>
    rw [run_locked hn, run_locked fun n hk => hn n (h.mem_iff.2 hk), h.sum_eq]
    simp only [reaches_perm h]

/-- Fewer amounts end in the same place exactly when the meter was unlocked before, when they reach
    the target too, or when all of them do not and what is missing adds up to nothing. -/
theorem run_eq_iff (hk : ∀ n ∈ ks, 0 ≤ n) (hn : ∀ n ∈ ns, 0 ≤ n) (hsub : ks.Sublist ns) :
    m.run t ks = m.run t ns ↔ m = .unlocked ∨
      ∃ c, m = .locked c ∧ (Reaches t c ks ∨ ¬Reaches t c ns ∧ ks.sum = ns.sum) := by
  cases m with
  | unlocked => simp
  | locked c =>
    rw [run_locked hk, run_locked hn]
    simp only [reduceCtorEq, Meter.locked.injEq, exists_eq_left', false_or]
    by_cases hks : Reaches t c ks
    · have hns : Reaches t c ns := reaches_sublist hsub hn hks
      simp [hks, hns]
    · by_cases hns : Reaches t c ns
      · simp [hks, hns]
      · simp [hks, hns]

end meters

/-! ### First deliveries -/

section winners
variable {ι K : Type} [DecidableEq K] (key : ι → K) (seen : K → Bool)

/-- The deliveries that count: the first with each key that was not seen before. -/
def winners (ts : List ι) : List ι :=
  ts.foldl (fun ws t => if seen (key t) || ws.any (key · = key t) then ws else ws ++ [t]) []

variable {key seen} {ts : List ι} {t w : ι}

/-- One more delivery wins if its key is new. -/
theorem winners_concat (t : ι) : winners key seen (ts ++ [t]) =
    if seen (key t) || (winners key seen ts).any (key · = key t) then winners key seen ts
    else winners key seen ts ++ [t] := by
  unfold winners
  rw [List.foldl_append]
  rfl

theorem mem_of_winner (h : w ∈ winners key seen ts) : w ∈ ts := by
  induction ts using List.reverseRecOn with
  | nil => cases h
  | append_singleton ts t ih =>
    rw [winners_concat] at h
    split at h
    · exact List.mem_append_left _ (ih h)
    · rcases List.mem_append.1 h with h | h
      · exact List.mem_append_left _ (ih h)
      · exact List.mem_append_right _ h

theorem winner_unseen (h : w ∈ winners key seen ts) : seen (key w) = false := by
  induction ts using List.reverseRecOn with
  | nil => cases h
  | append_singleton ts t ih =>
    rw [winners_concat] at h
    split at h
    · exact ih h
    · rename_i hnew
      rcases List.mem_append.1 h with h | h
      · exact ih h
      · rw [Bool.or_eq_true, not_or, Bool.not_eq_true] at hnew
        rw [List.mem_singleton.1 h]
        exact hnew.1

/-- No two winners have one key. -/
theorem winners_pairwise : (winners key seen ts).Pairwise fun a b => key a ≠ key b := by
  induction ts using List.reverseRecOn with
  | nil => exact .nil
  | append_singleton ts t ih =>
    rw [winners_concat]
    split
    · exact ih
    · rename_i hnew
      rw [List.pairwise_append]
      refine ⟨ih, List.pairwise_singleton _ _, fun a ha b hb => ?_⟩
      rw [List.mem_singleton.1 hb]
      intro hkey
      exact hnew (by
        rw [Bool.or_eq_true]
        exact .inr (List.any_eq_true.2 ⟨a, ha, by simpa using hkey⟩))

/-- Every new key has its winner. -/
theorem exists_winner (ht : t ∈ ts) (hs : seen (key t) = false) :
    ∃ w ∈ winners key seen ts, key w = key t := by
  induction ts using List.reverseRecOn with
  | nil => cases ht
  | append_singleton ts s ih =>
    rw [winners_concat]
    rcases List.mem_append.1 ht with ht | ht
    · obtain ⟨w, hw, hkey⟩ := ih ht
      split
      · exact ⟨w, hw, hkey⟩
      · exact ⟨w, List.mem_append_left _ hw, hkey⟩
    · obtain rfl := List.mem_singleton.1 ht
      split
      · rename_i hold
        rw [hs, Bool.false_or, List.any_eq_true] at hold
        obtain ⟨w, hw, hkey⟩ := hold
        exact ⟨w, hw, by simpa using hkey⟩
      · exact ⟨t, List.mem_append_right _ (List.mem_singleton_self _), rfl⟩

/-- The winner of a key is its first delivery. -/
theorem find_winner (h : w ∈ winners key seen ts) : ts.find? (key · = key w) = some w := by
  induction ts using List.reverseRecOn with
  | nil => cases h
  | append_singleton ts t ih =>
    rw [winners_concat] at h
    split at h
    · rw [List.find?_append, ih h]
      rfl
    · rename_i hnew
      rcases List.mem_append.1 h with h | h
      · rw [List.find?_append, ih h]
        rfl
      · obtain rfl := List.mem_singleton.1 h
        have hnone : ts.find? (key · = key w) = none := by
          rw [List.find?_eq_none]
          intro s hs hkey
          have hkey : key s = key w := by simpa using hkey
          rw [Bool.or_eq_true, not_or] at hnew
          have hunseen : seen (key s) = false := by simpa [hkey] using hnew.1
          obtain ⟨v, hv, hvkey⟩ := exists_winner hs hunseen
          exact hnew.2 (List.any_eq_true.2 ⟨v, hv, by simp [hvkey, hkey]⟩)
        rw [List.find?_append, hnone]
        simp

end winners

end Tally
