import CinemaLoyalty.Books
import CinemaLoyalty.Listings

/-! @svc Statements | layer:system | source:src/loyalty/loyalty.service.ts (getBalance, getFullProfile, getUserTransactions), src/loyalty/admin-loyalty.service.ts (getUserBalanceGrpc, getTransactionHistoryGrpc)

    What a user is shown adds up. The listings sort the ledger by creation time; where these times
    stand in the order of the ledger, the pages are cut from one statement that runs down from the
    balance, row by row, to 0 (`statements_add_up`). Rows out of that order are listed all the same,
    and the balances they state need not follow each other. -/

namespace CinemaLoyalty
open Paging RunningTotal

/-- Messages that run down from a balance to 0, the newest first. -/
def AccountStatement (balance : ℤ) (messages : List TransactionMessage) : Prop :=
  RunsDown TransactionMessage.points TransactionMessage.balanceAfter balance messages

section statements
variable {db : DB} {userId : Uuid} {order : List PointsTransaction}

/-- The messages of a ledger, the newest first. -/
def DB.statement (db : DB) (userId : Uuid) : List TransactionMessage :=
  (db.ledgerOf userId).reverse.map (·.toMessage)

theorem statement_of (h : db.Balanced userId) :
    AccountStatement (db.balanceOf userId) (db.statement userId) := by
  rw [h.total]
  exact RunsDown.map (f := PointsTransaction.toMessage) (fun _ => rfl) (fun _ => rfl)
    (running_reverse h.running)

/-- Rows that carry the order of the ledger are listed in that order. -/
theorem listed_newest_first (horder : Admits NewestFirst (db.ledgerOf userId) order)
    (hrows : (db.ledgerOf userId).Pairwise (·.createdAt < ·.createdAt)) :
    order = (db.ledgerOf userId).reverse := by
  refine horder.unique (List.reverse_perm _) (List.pairwise_reverse.2 (hrows.imp fun h => ?_))
  exact ⟨h.le, not_le.2 h⟩

theorem page_map {skip take : ℕ} :
    (page (db.ledgerOf userId).reverse skip take).map (·.toMessage) =
      page (db.statement userId) skip take := by
  unfold page DB.statement
  rw [List.map_take, List.map_drop]

/-- Both listings read pages of the statement. -/
theorem pages_shown {size k : ℕ} {orderBy : List PointsTransaction → List PointsTransaction}
    (h₁ : 1 ≤ size) (h₂ : size ≤ 100)
    (horder : orderBy (db.ledgerOf userId) = (db.ledgerOf userId).reverse) :
    transactionsPage db userId size orderBy k = .ok (page (db.statement userId) (k * size) size) ∧
      (k * size ≤ 9007199254740991 →
        historyPage db userId size orderBy k = .ok (page (db.statement userId) (k * size) size)) := by
  have hpage : (page (orderBy (db.ledgerOf userId)) (k * size) size).map (·.toMessage) =
      page (db.statement userId) (k * size) size := by rw [horder, page_map]
  refine ⟨?_, fun hk => ?_⟩
  · rw [← hpage]
    have htake : (min (max (size : ℤ) 1) 100).toNat = size := by omega
    have hskip : (max ((k * size : ℕ) : ℤ) 0).toNat = k * size := by
      rw [max_eq_left (Int.natCast_nonneg _), Int.toNat_natCast]
    unfold transactionsPage getUserTransactions
    rw [htake, hskip]
  · rw [← hpage]
    exact (history_paginated h₁ h₂ orderBy k).1 hk

/-- After any run in which the rows of a user carry creation times in the order of the ledger, one
    statement runs down from the balance that all three reads of the profile show to 0, and after
    such a read every page of either listing, of any size and however the database orders rows, is
    cut from that statement, whose length is the total. -/
theorem statements_add_up (ops : List Op) (userId : UuidText) (now : Instant) {db read : DB}
    (hrun : DB.empty.runOps ops = db)
    (hrows : (db.ledgerOf userId.value).Pairwise (·.createdAt < ·.createdAt))
    (hread : (getBalance userId db).2 = read) :
    ∃ messages, AccountStatement (getBalance userId db).1.balance messages ∧
      AccountStatement (getFullProfile userId now db).1.balance messages ∧
      AccountStatement (getUserBalanceGrpc userId db).1.balance messages ∧
      ∀ orderBy, Admits NewestFirst (read.ledgerOf userId.value)
          (orderBy (read.ledgerOf userId.value)) →
        ∀ size k : ℕ, 1 ≤ size → size ≤ 100 →
          transactionsPage read userId.value size orderBy k = .ok (page messages (k * size) size) ∧
          (k * size ≤ 9007199254740991 →
            historyPage read userId.value size orderBy k = .ok (page messages (k * size) size)) ∧
          (getUserTransactions orderBy userId.value size (k * size : ℕ) read).2 =
            messages.length := by
  subst hrun
  have hledger : read.ledgerOf userId.value = (DB.empty.runOps ops).ledgerOf userId.value := by
    rw [← hread]
    exact ensureProfile_ledgerOf _ _
  have hsame : read.statement userId.value = (DB.empty.runOps ops).statement userId.value := by
    unfold DB.statement
    rw [hledger]
  have hstatement := statement_of (run_balanced ops userId.value)
  refine ⟨_, hstatement, hstatement, hstatement, fun orderBy horder size k h₁ h₂ => ?_⟩
  have hnewest := listed_newest_first horder (hledger ▸ hrows)
  obtain ⟨htransactions, hhistory⟩ := pages_shown (k := k) h₁ h₂ hnewest
  rw [← hsame]
  refine ⟨htransactions, hhistory, ?_⟩
  unfold getUserTransactions DB.statement
  rw [List.length_map, List.length_reverse]

/-- A gift of 100 points and an adjustment of -40, a second later. -/
def giftAndFine : List Op :=
  [.call (.modifyPointsGrpc ⟨Uuid.nil.text, .nil, nilText_named⟩ "admin" 100 "gift") 0,
    .call (.modifyPointsGrpc ⟨Uuid.nil.text, .nil, nilText_named⟩ "admin" (-40) "fine") 1000]

/-- The statement has both rows, and a first page of two holds it. -/
theorem statements_add_up_fine : ∃ messages, AccountStatement 60 messages ∧ messages.length = 2 ∧
    transactionsPage (getBalance ⟨Uuid.nil.text, .nil, nilText_named⟩ (DB.empty.runOps giftAndFine)).2
      .nil 2 (·.insertionSort NewestFirst) 0 = .ok messages := by
  have hrows : ((DB.empty.runOps giftAndFine).ledgerOf .nil).Pairwise
      (·.createdAt < ·.createdAt) := by decide +kernel
  have hbalance : (getBalance ⟨Uuid.nil.text, .nil, nilText_named⟩
      (DB.empty.runOps giftAndFine)).1.balance = 60 := by decide +kernel
  obtain ⟨messages, hstatement, -, -, hpages⟩ :=
    statements_add_up giftAndFine ⟨Uuid.nil.text, .nil, nilText_named⟩ 0 rfl hrows rfl
  obtain ⟨hpage, -, hlength⟩ := hpages (·.insertionSort NewestFirst)
    (admits_insertionSort NewestFirst _) 2 0 (by decide) (by decide)
  have htwo : messages.length = 2 := by
    rw [← hlength]
    decide +kernel
  refine ⟨messages, hbalance ▸ hstatement, htwo, hpage.trans ?_⟩
  rw [page, Nat.zero_mul, List.drop_zero, List.take_of_length_le htwo.le]

end statements

end CinemaLoyalty
