import Mathlib.Order.Basic

/-! @lib UpgradeChain | scheme:fold | layer:library

    A rank kept beside the list of its announced upgrades. `Chain` says that the announcements lead
    step by step, each strictly upwards, from the first rank to the current one; announcing every
    change of rank keeps it. -/

namespace UpgradeChain

section
variable {ρ τ : Type} [Preorder τ] (old new : ρ → τ)

/-- The rows lead from the rank `a` to the rank `b`. -/
def Chain : τ → List ρ → τ → Prop
  | a, [], b => a = b
  | a, r :: rows, b => old r = a ∧ old r < new r ∧ Chain (new r) rows b

/-- A movement of the rank: nothing, or an upgrade with its announcement. -/
inductive Moves (rank : τ) (rows : List ρ) : τ → List ρ → Prop
  | still : Moves rank rows rank rows
  | upgraded {r : ρ} (hold : old r = rank) (hlt : rank < new r) :
      Moves rank rows (new r) (rows ++ [r])

variable {old new}

/-- One more announcement. -/
theorem chain_concat {rows : List ρ} {a b : τ} {r : ρ} (h : Chain old new a rows b)
    (hold : old r = b) (hlt : b < new r) : Chain old new a (rows ++ [r]) (new r) := by
  induction rows generalizing a with
  | nil =>
    obtain rfl : a = b := h
    exact ⟨hold, hold ▸ hlt, rfl⟩
  | cons q rows ih =>
    obtain ⟨hq, hup, h⟩ := h
    exact ⟨hq, hup, ih h⟩

theorem chain_moves {a b b' : τ} {rows rows' : List ρ} (h : Chain old new a rows b)
    (hm : Moves old new b rows b' rows') : Chain old new a rows' b' := by
  cases hm with
  | still => exact h
  | upgraded hold hlt => exact chain_concat h hold hlt

/-- The rank is at least every announced one. -/
theorem chain_below {rows : List ρ} {a b : τ} (h : Chain old new a rows b) :
    a ≤ b ∧ ∀ r ∈ rows, new r ≤ b := by
  induction rows generalizing a with
  | nil =>
    obtain rfl : a = b := h
    exact ⟨le_refl a, fun r hr => absurd hr List.not_mem_nil⟩
  | cons q rows ih =>
    obtain ⟨rfl, hup, h⟩ := h
    obtain ⟨hle, hall⟩ := ih h
    refine ⟨hup.le.trans hle, fun r hr => ?_⟩
    rcases List.mem_cons.1 hr with rfl | hr
    · exact hle
    · exact hall r hr

/-- Announcements passed on under another form. -/
theorem chain_map {ρ' : Type} {f : ρ' → ρ} {rows : List ρ'} {a b : τ} :
    Chain old new a (rows.map f) b ↔ Chain (fun r => old (f r)) (fun r => new (f r)) a rows b := by
  induction rows generalizing a with
  | nil => exact Iff.rfl
  | cons q rows ih => exact and_congr Iff.rfl (and_congr Iff.rfl ih)

/-- No movement lowers the rank. -/
theorem moves_le {b b' : τ} {rows rows' : List ρ} (hm : Moves old new b rows b' rows') : b ≤ b' := by
  cases hm with
  | still => exact le_refl b
  | upgraded _ hlt => exact le_of_lt hlt

end

end UpgradeChain
