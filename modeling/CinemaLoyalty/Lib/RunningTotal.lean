import Mathlib.Algebra.BigOperators.Group.List.Basic
import Mathlib.Algebra.Order.BigOperators.Group.List
import Mathlib.Algebra.Order.Group.Defs
import Mathlib.Data.List.Induction

/-! @lib RunningTotal | scheme:fold | layer:library

    An account kept as a list of postings, each stating the total after it. `Account` says that the
    balance is the sum of the postings, that it is not negative, and that every stated total is the
    sum up to and including its posting; posting one consistent row keeps it. Read from its end,
    the list runs down from the balance to 0. -/

namespace RunningTotal

section
variable {ρ G : Type} [AddCommGroup G] (amount after : ρ → G)

/-- The sum of the amounts. -/
def total (rows : List ρ) : G := (rows.map amount).sum

/-- Every row states the total after it, starting from `start`. -/
def Running : G → List ρ → Prop
  | _, [] => True
  | start, r :: rows => after r = start + amount r ∧ Running (after r) rows

/-- Rows that run down to 0: each states the total of itself and the rows behind it. -/
inductive RunsDown : G → List ρ → Prop
  | opened : RunsDown 0 []
  | posted {balance : G} {r : ρ} {rows : List ρ} (h : RunsDown balance rows)
      (hafter : after r = balance + amount r) : RunsDown (after r) (r :: rows)

variable {amount after}

@[simp] theorem total_nil : total amount ([] : List ρ) = 0 := rfl

@[simp] theorem total_cons (r : ρ) (rows : List ρ) :
    total amount (r :: rows) = amount r + total amount rows := by simp [total]

@[simp] theorem total_append (rows rows' : List ρ) :
    total amount (rows ++ rows') = total amount rows + total amount rows' := by simp [total]

/-- One more row that states the total after it. -/
theorem running_concat {rows : List ρ} {start : G} {r : ρ} (hr : Running amount after start rows)
    (h : after r = start + total amount rows + amount r) :
    Running amount after start (rows ++ [r]) := by
  induction rows generalizing start with
  | nil => exact ⟨by simpa using h, trivial⟩
  | cons q rows ih =>
    obtain ⟨hq, hr⟩ := hr
    refine ⟨hq, ih hr ?_⟩
    simp only [h, total_cons, hq, add_assoc]

/-- What any row of a running list states. -/
theorem running_at {before : List ρ} {start : G} {r : ρ} {rest : List ρ}
    (h : Running amount after start (before ++ r :: rest)) :
    after r = start + total amount (before ++ [r]) := by
  induction before generalizing start with
  | nil => simpa using h.1
  | cons q before ih =>
    obtain ⟨hq, h⟩ := h
    rw [ih h, hq, List.cons_append, total_cons, add_assoc]

theorem running_front {rows rest : List ρ} {start : G}
    (h : Running amount after start (rows ++ rest)) : Running amount after start rows := by
  induction rows generalizing start with
  | nil => trivial
  | cons q rows ih => exact ⟨h.1, ih h.2⟩

/-- A running list runs down from its total. -/
theorem running_reverse {rows : List ρ} (h : Running amount after 0 rows) :
    RunsDown amount after (total amount rows) rows.reverse := by
  induction rows using List.reverseRecOn with
  | nil => exact .opened
  | append_singleton rows r ih =>
    have hafter : after r = total amount rows + amount r := by
      rw [running_at h, zero_add, total_append, total_cons, total_nil, add_zero]
    have hdown := RunsDown.posted (ih (running_front h)) hafter
    rwa [List.reverse_concat, total_append, total_cons, total_nil, add_zero, ← hafter]

/-- Whatever keeps the amounts and the stated totals of the rows keeps what they run down from. -/
theorem RunsDown.map {σ : Type} {amount' after' : σ → G} {f : ρ → σ}
    (ha : ∀ r, amount' (f r) = amount r) (ht : ∀ r, after' (f r) = after r) {balance : G}
    {rows : List ρ} (h : RunsDown amount after balance rows) :
    RunsDown amount' after' balance (rows.map f) := by
  induction h with
  | opened => exact .opened
  | @posted balance r rows _ hafter ih =>
    rw [← ht r, List.map_cons]
    refine .posted ih ?_
    rw [ht, ha, hafter]

/-- The rows that satisfy a condition and those that do not make up the total. -/
theorem total_split (p : ρ → Bool) (rows : List ρ) :
    total amount rows = total amount (rows.filter p) + total amount (rows.filter (!p ·)) := by
  induction rows with
  | nil => simp
  | cons r rows ih =>
    cases hp : p r
    · simp [hp, ih, add_left_comm]
    · simp [hp, ih, add_assoc]

section
variable [PartialOrder G] [IsOrderedAddMonoid G]

theorem total_nonneg {rows : List ρ} (h : ∀ r ∈ rows, 0 ≤ amount r) : 0 ≤ total amount rows :=
  List.sum_nonneg fun x hx => by
    obtain ⟨r, hr, rfl⟩ := List.mem_map.1 hx
    exact h r hr

theorem total_nonpos {rows : List ρ} (h : ∀ r ∈ rows, amount r ≤ 0) : total amount rows ≤ 0 := by
  induction rows with
  | nil => simp
  | cons r rows ih =>
    rw [total_cons]
    exact add_nonpos (h r (by simp)) (ih fun q hq => h q (by simp [hq]))

/-- Rows whose groups by a key each total at most zero total at most zero: the group of the first
    row is taken out, and the rest has fewer rows. -/
theorem total_nonpos_of_groups {κ : Type} [DecidableEq κ] (key : ρ → κ) (rows : List ρ)
    (h : ∀ k, total amount (rows.filter (key · = k)) ≤ 0) : total amount rows ≤ 0 := by
  induction hn : rows.length using Nat.strong_induction_on generalizing rows with
  | _ n ih =>
    cases rows with
    | nil => simp
    | cons r rows =>
      rw [total_split (key · = key r) (r :: rows)]
      refine add_nonpos (h (key r)) (ih _ ?_ _ (fun k => ?_) rfl)
      · have hle := List.length_filter_le (fun x => !decide (key x = key r)) rows
        simp only [List.length_cons] at hn
        simp only [decide_true, Bool.not_true, Bool.false_eq_true, not_false_eq_true,
          List.filter_cons_of_neg]
        omega
      · rw [List.filter_filter]
        by_cases hk : k = key r
        · rw [hk, List.filter_eq_nil_iff.2 (by simp)]
          simp
        · rw [List.filter_congr fun x _ => ?_]
          · exact h k
          · by_cases hx : key x = k
            · simp [hx, hk]
            · simp [hx]

end

variable [LE G]

/-- The books of one account. -/
structure Account (amount after : ρ → G) (balance : G) (rows : List ρ) : Prop where
  total : balance = RunningTotal.total amount rows
  nonneg : 0 ≤ balance
  running : Running amount after 0 rows

/-- A movement of an account: nothing, or one row for exactly the difference, stating the new
    balance, which is not negative if the old one was not. -/
inductive Moves (amount after : ρ → G) (balance : G) (rows : List ρ) : G → List ρ → Prop
  | still : Moves amount after balance rows balance rows
  | posted {r : ρ} (hafter : after r = balance + amount r) (hpos : 0 ≤ balance → 0 ≤ after r) :
      Moves amount after balance rows (after r) (rows ++ [r])

theorem account_moves {b b' : G} {rows rows' : List ρ} (ha : Account amount after b rows)
    (hm : Moves amount after b rows b' rows') : Account amount after b' rows' := by
  cases hm with
  | still => exact ha
  | posted hafter hpos =>
    refine ⟨?_, hpos ha.nonneg, running_concat ha.running ?_⟩
    · rw [hafter, ha.total, total_append, total_cons, total_nil, add_zero]
    · rw [hafter, ha.total, zero_add]

end

end RunningTotal
