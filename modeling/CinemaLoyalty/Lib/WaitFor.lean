import Mathlib.Algebra.Order.Group.Nat
import CinemaLoyalty.Lib.OwnerSerial

/-! @lib WaitFor | scheme:lock-order | layer:library

    Disciplined transactions never deadlock. A transaction waits for another when its next statement
    needs what the other holds. Everybody creates the owner's row, locks it, and comes to the shared
    key last; what belongs to the owner is held by whoever holds the owner's row. So a wait leads from
    a transaction that has come less far to one that has come further (`waits_level`), and there are
    no cycles (`no_deadlock`). -/

namespace Txn
open Relation

section waits
variable {ι : Type} {S : Type → Type} {ε σ ω ρ α : Type} (E : Engine S ε σ ω ρ)

/-- The next statement of `i` needs a row or a unique key that `j` holds. -/
def Waits (M : Machine ι S ε σ ω ρ α) (i j : ι) : Prop :=
  j ≠ i ∧ ∃ (β : Type) (s : S β) (k : β → Prog S ε α) (ws : List ω) (held : List ρ),
    M.txs i = .running (.stmt s k) ws held ∧ ∃ r ∈ E.footprint s (E.view M.db ws), r ∈ (M.txs j).held

variable {E} {M : Machine ι S ε σ ω ρ α}

/-- Where waits only lead upwards there is no cycle. -/
theorem waits_acyclic {level : ι → ℕ} (h : ∀ i j, Waits E M i j → level i < level j) (i : ι) :
    ¬TransGen (Waits E M) i i := by
  have hlt : ∀ {i j}, TransGen (Waits E M) i j → level i < level j := by
    intro i j hij
    induction hij with
    | single hw => exact h _ _ hw
    | tail _ hw ih => exact ih.trans (h _ _ hw)
  exact fun hii => (hlt hii).false

/-- Where waits lead upwards below a bound, they end at a transaction that does not wait. -/
theorem waits_end {level : ι → ℕ} {n : ℕ} (h : ∀ i j, Waits E M i j → level i < level j)
    (hn : ∀ i, level i ≤ n) (i : ι) : ∃ j, ReflTransGen (Waits E M) i j ∧ ∀ l, ¬Waits E M j l := by
  induction hgap : n - level i using Nat.strong_induction_on generalizing i with
  | _ gap ih =>
    by_cases hfree : ∀ l, ¬Waits E M i l
    · exact ⟨i, .refl, hfree⟩
    · simp only [not_forall, not_not] at hfree
      obtain ⟨l, hw⟩ := hfree
      have hlt := h i l hw
      have hle := hn l
      obtain ⟨j, hj, hend⟩ := ih (n - level l) (by omega) l rfl
      exact ⟨j, .head hw hj, hend⟩

end waits

namespace OwnerStore
variable {ι : Type} {S : Type → Type} {ε σ ω ρ α U K μ : Type} [DecidableEq K]
  {E : Engine S ε σ ω ρ}

/-- What a resource protects: the creation of an owner's row, the rows of an owner, or a shared key. -/
inductive Lock (U : Type)
  | creates (u : U)
  | owns (u : U)
  | shared

/-- Which resources the statements of the discipline need. -/
structure Locking (L : OwnerStore E U K μ) where
  lock : ρ → Lock U
  lock_key : ∀ k, lock (L.keyLock k) = .shared
  foot_open : ∀ u x, ∀ r ∈ E.footprint (L.openS u) x, lock r = .creates u
  foot_lock : ∀ u x, ∀ r ∈ E.footprint (L.lockS u) x, lock r = .owns u
  foot_absent : ∀ u x, L.present u x = false → E.footprint (L.lockS u) x = []
  foot_find : ∀ k x, E.footprint (L.findS k) x = []
  foot_claim : ∀ m x, ∀ r ∈ E.footprint (L.claimS m) x, r = L.keyLock (L.key m)
  foot_create : ∀ m x, ∀ r ∈ E.footprint (L.createS m) x, r = L.keyLock (L.key m)
  foot_own : ∀ {u} x {β : Type} {s : S β}, L.own u s → ∀ r ∈ E.footprint s x, lock r = .owns u

variable {L : OwnerStore E U K μ} (F : L.Locking)

/-- What a transaction holds: the right to create its owner's row, and the rows of its owner and its
    key under the lock of that row. -/
def Locking.Holds (u : U) (k : K) (held : List ρ) : Prop :=
  ∀ r ∈ held, F.lock r = .creates u ∨ L.rowLock u ∈ held ∧ (F.lock r = .owns u ∨ r = L.keyLock k)

variable {F} {Ps : ι → Prog S ε α} {db c : σ} {h : List (ι × α)} {P : Prog S ε α} {u : U} {k : K}
  {ws : List ω} {held : List ρ} {β : Type} {s : S β} {n : β → Prog S ε α}

/-- What the next statement of an open transaction needs. -/
inductive Needs (F : L.Locking) (u : U) (k : K) (held needs : List ρ) : Prop
  | none (h : needs = [])
  | creates (hheld : held = []) (h : ∀ r ∈ needs, F.lock r = .creates u)
  | locks (hrow : needs ≠ [] → L.rowLock u ∈ needs) (h : ∀ r ∈ needs, F.lock r = .owns u)
  | owns (hrow : L.rowLock u ∈ held) (h : ∀ r ∈ needs, F.lock r = .owns u)
  | shares (hrow : L.rowLock u ∈ held) (h : ∀ r ∈ needs, r = L.keyLock k)

/-- The lock statement needs the row lock, or nothing. -/
theorem foot_lock_row (F : L.Locking) {x : σ} (hne : E.footprint (L.lockS u) x ≠ []) :
    L.rowLock u ∈ E.footprint (L.lockS u) x := by
  cases hp : L.present u x with
  | true => exact List.mem_append_left _ (L.locks_lock u x hp)
  | false => exact absurd (F.foot_absent u x hp) hne

/-- A statement under the lock: one case for each statement the discipline allows there. -/
theorem disc_needs {ans : μ → Prog S ε α} {seen : Seen} {wrote : Bool}
    (hd : L.Disc P u k ans seen wrote (.stmt s n)) (hrow : L.rowLock u ∈ held) (x : σ) :
    Needs F u k held (E.footprint s x) := by
  cases hd with
  | read hown _ _ => exact .owns hrow (F.foot_own x hown)
  | write hown _ => exact .owns hrow (F.foot_own x hown)
  | find _ _ => exact .none (F.foot_find k x)
  | refind _ => exact .none (F.foot_find k x)
  | create hk _ => exact .shares hrow (hk ▸ F.foot_create _ x)
  | claimFirst hk _ _ => exact .shares hrow (hk ▸ F.foot_claim _ x)
  | claim hk _ _ _ _ => exact .shares hrow (hk ▸ F.foot_claim _ x)

theorem mode_needs (hm : L.Mode Ps db h c P u k (.stmt s n) ws held) (x : σ) :
    Needs F u k held (E.footprint s x) := by
  cases hm with
  | init hd =>
    cases hd with
    | final hf => exact absurd hf not_final_stmt
    | locked _ _ _ => exact .locks (foot_lock_row F) (F.foot_lock u x)
    | opened _ _ => exact .creates rfl (F.foot_open u x)
  | opened _ _ _ => exact .locks (foot_lock_row F) (F.foot_lock u x)
  | locked _ _ _ hlock _ _ _ _ _ _ _ hd => exact disc_needs hd hlock x
  | missing _ _ _ _ hd =>
    cases hd with
    | final hf => exact absurd hf not_final_stmt
    | find _ _ _ => exact .none (F.foot_find k x)
  | late _ _ _ _ _ => exact .none (F.foot_find k x)
  | answered m _ hp _ ha => exact absurd (hp ▸ ha.final m) not_final_stmt

/-- What a statement needs is what its transaction may hold next. -/
theorem holds_append {needs : List ρ} (hheld : F.Holds u k held) (hn : Needs F u k held needs) :
    F.Holds u k (held ++ needs) := by
  have hold : ∀ r ∈ held, F.lock r = .creates u ∨
      L.rowLock u ∈ held ++ needs ∧ (F.lock r = .owns u ∨ r = L.keyLock k) := fun r hr =>
    (hheld r hr).imp id fun hrow => ⟨List.mem_append_left _ hrow.1, hrow.2⟩
  intro r hr
  rcases List.mem_append.1 hr with hr | hr
  · exact hold r hr
  cases hn with
  | none hnil => rw [hnil] at hr; cases hr
  | creates _ h => exact .inl (h r hr)
  | locks hrow h =>
    exact .inr ⟨List.mem_append_right _ (hrow (List.ne_nil_of_mem hr)), .inl (h r hr)⟩
  | owns hrow h => exact .inr ⟨List.mem_append_left _ hrow, .inl (h r hr)⟩
  | shares hrow h => exact .inr ⟨List.mem_append_left _ hrow, .inr (h r hr)⟩

/-! ### How far a transaction has come -/

section level
variable [DecidableEq ρ]

/-- Nothing held, the right to create the row, the row, the key. -/
def level (L : OwnerStore E U K μ) (u : U) (k : K) (held : List ρ) : ℕ :=
  if L.keyLock k ∈ held then 3 else if L.rowLock u ∈ held then 2 else if held = [] then 0 else 1

theorem level_le (u : U) (k : K) (held : List ρ) : level L u k held ≤ 3 := by
  unfold level
  repeat' split
  all_goals omega

/-- What a transaction needs is held by one that has come further. -/
theorem level_lt {v : U} {k' : K} {needs held' : List ρ} {r : ρ} (hheld : F.Holds u k held)
    (hheld' : F.Holds v k' held') (hex : ∀ r ∈ held, r ∉ held') (hn : Needs F u k held needs)
    (hr : r ∈ needs) (hr' : r ∈ held') : level L u k held < level L v k' held' := by
  have hsome : held' ≠ [] := List.ne_nil_of_mem hr'
  -- a resource among an owner's rows is held under the lock of the owner's row
  have howned : F.lock r = .owns u → v = u ∧ L.rowLock v ∈ held' := by
    intro hlock
    rcases hheld' r hr' with hcreates | ⟨hrow, howns | rfl⟩
    · rw [hlock] at hcreates; cases hcreates
    · rw [hlock] at howns
      cases howns
      exact ⟨rfl, hrow⟩
    · rw [F.lock_key] at hlock; cases hlock
  -- and so is the key
  have hkeyed : ∀ {w : U} {l : K} {rs : List ρ}, F.Holds w l rs → L.keyLock l ∈ rs →
      L.rowLock w ∈ rs := by
    intro w l rs hrs hkey
    rcases hrs _ hkey with hcreates | ⟨hrow, -⟩
    · rw [F.lock_key] at hcreates; cases hcreates
    · exact hrow
  unfold level
  cases hn with
  | none hnil => rw [hnil] at hr; cases hr
  | creates hnone _ =>
    subst hnone
    simp only [List.not_mem_nil, if_false, if_true, hsome]
    repeat' split
    all_goals omega
  | owns hrow h =>
    obtain ⟨rfl, hrow'⟩ := howned (h r hr)
    exact absurd hrow' (hex _ hrow)
  | locks _ h =>
    obtain ⟨rfl, hrow'⟩ := howned (h r hr)
    have hrow : L.rowLock v ∉ held := fun hrow => hex _ hrow hrow'
    rw [if_neg (fun hkey => hrow (hkeyed hheld hkey)), if_neg hrow, if_pos hrow']
    repeat' split
    all_goals omega
  | shares hrow h =>
    obtain rfl := h r hr
    have hkey' : L.keyLock k' ∈ held' := by
      rcases hheld' _ hr' with hcreates | ⟨-, howns | heq⟩
      · rw [F.lock_key] at hcreates; cases hcreates
      · rw [F.lock_key] at howns; cases howns
      · rw [← heq]; exact hr'
    rw [if_neg (fun hkey => hex _ hkey hr'), if_pos hrow, if_pos hkey']
    omega

end level

/-! ### Whole interleavings -/

section runs
variable [DecidableEq ι] {own : ι → U} {key : ι → K} {M : Machine ι S ε σ ω ρ α}

theorem set_holds (F : L.Locking) {i : ι} {st : Status S ε ω ρ α}
    (hM : ∀ j, F.Holds (own j) (key j) (M.txs j).held) (hst : F.Holds (own i) (key i) st.held) (j : ι) :
    F.Holds (own j) (key j) ((M.set i st).txs j).held := by
  by_cases hj : j = i
  · subst hj
    rw [set_self]
    exact hst
  · rw [set_other M st hj]
    exact hM j

theorem reach_holds (F : L.Locking) (hD : ∀ i, L.Disciplined (own i) (key i) (Ps i))
    (hr : Reach E Ps db M) : ∀ i, F.Holds (own i) (key i) (M.txs i).held := by
  induction hr with
  | refl => exact fun _ _ hr => (List.not_mem_nil hr).elim
  | tail hr hs ih =>
    obtain ⟨h, ho⟩ := reach_ordered hD hr
    cases hs with
    | exec hi he hfree =>
      rename_i i _ _ _ _ _ _ _
      have hheld := ih i
      rw [hi] at hheld
      exact set_holds F ih (holds_append hheld (mode_needs (ho.mode i _ _ _ hi) _))
    | commit hi => exact set_holds F ih fun _ hr => (List.not_mem_nil hr).elim
    | abort hi => exact set_holds F ih fun _ hr => (List.not_mem_nil hr).elim
    | retry hi => exact set_holds F ih fun _ hr => (List.not_mem_nil hr).elim

variable [DecidableEq ρ]

/-- A wait leads to a transaction that has come further. -/
theorem waits_level (F : L.Locking) (hD : ∀ i, L.Disciplined (own i) (key i) (Ps i))
    (hr : Reach E Ps db M) (i j : ι) (hw : Waits E M i j) :
    level L (own i) (key i) (M.txs i).held < level L (own j) (key j) (M.txs j).held := by
  obtain ⟨h, ho⟩ := reach_ordered hD hr
  obtain ⟨hji, β, s, n, ws, held, hi, r, hneeds, hheld⟩ := hw
  have hn : Needs F (own i) (key i) held (E.footprint s (E.view M.db ws)) :=
    mode_needs (ho.mode i _ _ _ hi) _
  have hholds := reach_holds F hD hr i
  have hex := ho.excl i j (Ne.symm hji)
  rw [hi] at hholds hex ⊢
  exact level_lt hholds (reach_holds F hD hr j) hex hn hneeds hheld

/-- Disciplined transactions do not deadlock: no waits in a circle, and every wait ends, through
    others, at a transaction that does not wait. -/
theorem no_deadlock (F : L.Locking) (hD : ∀ i, L.Disciplined (own i) (key i) (Ps i))
    (hr : Reach E Ps db M) (i : ι) : ¬TransGen (Waits E M) i i ∧
      ∃ j, ReflTransGen (Waits E M) i j ∧ ∀ l, ¬Waits E M j l :=
  ⟨waits_acyclic (waits_level F hD hr) i,
    waits_end (waits_level F hD hr) (fun j => level_le (own j) (key j) _) i⟩

end runs

end OwnerStore

end Txn
