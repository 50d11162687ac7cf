import CinemaLoyalty.Lib.Paging
import CinemaLoyalty.Profile
import Mathlib.Order.Lattice
import Mathlib.Data.Prod.Lex

/-! @svc Listings | layer:system | source:src/loyalty/loyalty.service.ts (getUserTransactions), src/loyalty/admin-loyalty.service.ts, src/achievements/admin-achievements.service.ts, src/achievements/validators/admin-achievement-input.validator.ts

    The four listings that are read page by page. `orderBy` stands for the database's answer to the
    ORDER BY of one query: any ordering of the selected rows that the sort key allows. No sort key
    ends with a unique column, so rows that tie may move between two queries; every row is read
    once exactly if ties never lie on both sides of the end of a page (`listings_return_all`). -/

namespace CinemaLoyalty
open Paging

/-! ### Transactions -/

/-- A transaction as clients see it. -/
structure TransactionMessage where
  id : RowId
  type : PointsTransactionType
  points : ℤ
  balanceAfter : ℤ
  orderId : String
  description : String
  createdAt : String
  deriving DecidableEq

/-- The message of a ledger row. -/
def PointsTransaction.toMessage (t : PointsTransaction) : TransactionMessage where
  id := t.id
  type := t.type
  points := t.points
  balanceAfter := t.balanceAfter
  orderId := (t.orderId.map (·.text)).getD ""
  description := t.description
  createdAt := toISOString t.createdAt

/-- `orderBy: { createdAt: 'desc' }`. -/
def NewestFirst (a b : PointsTransaction) : Prop := b.createdAt ≤ a.createdAt

instance : DecidableRel NewestFirst := fun _ _ => inferInstanceAs (Decidable (_ ≤ _))

instance : Std.Total NewestFirst := ⟨fun _ _ => le_total _ _⟩

instance : IsTrans PointsTransaction NewestFirst := ⟨fun _ _ _ h₁ h₂ => le_trans h₂ h₁⟩

/-- `getUserTransactions`: the page and the total. -/
def getUserTransactions (orderBy : List PointsTransaction → List PointsTransaction) (userId : Uuid)
    (limit skip : ℤ) (db : DB) : List TransactionMessage × ℕ :=
  let take := (min (max limit 1) 100).toNat
  let offset := (max skip 0).toNat
  ((page (orderBy (db.ledgerOf userId)) offset take).map (·.toMessage), (db.ledgerOf userId).length)

/-- `Number.isSafeInteger`. -/
def isSafeInteger (n : ℤ) : Bool := decide (|n| ≤ 9007199254740991)

/-- `adminPagination`: `take` and `skip`. -/
def adminPagination (limit skip : ℤ) : Except TxError (ℕ × ℕ) :=
  let take := if limit = 0 then 50 else limit
  if !isSafeInteger take || decide (take < 1) || decide (100 < take) || !isSafeInteger skip ||
      decide (skip < 0) then
    .error (.rpc .INVALID_ARGUMENT
      "Limit must be 0 (default 50) or 1 to 100; skip must be a non-negative integer.")
  else .ok (take.toNat, skip.toNat)

/-- `getTransactionHistoryGrpc`. -/
def getTransactionHistoryGrpc (orderBy : List PointsTransaction → List PointsTransaction)
    (userId : Uuid) (limit skip : ℤ) (db : DB) : Except TxError (List TransactionMessage) := do
  let (take, skip) ← adminPagination limit skip
  return (page (orderBy (db.ledgerOf userId)) skip take).map (·.toMessage)

/-! ### Users -/

/-- A row of the profile table. -/
structure ProfileRow extends LoyaltyProfile where
  userId : Uuid
  deriving DecidableEq

/-- A profile as administrators see it. -/
structure AdminUserProfile where
  userId : Uuid
  tier : GrpcTier
  balance : ℤ
  lifetimePoints : ℤ
  deriving DecidableEq

/-- The message of a profile row. -/
def ProfileRow.toMessage (p : ProfileRow) : AdminUserProfile where
  userId := p.userId
  tier := toGrpcTier p.tier
  balance := p.balance
  lifetimePoints := p.lifetimePoints

/-- `orderBy: { lifetimePoints: 'desc' }`. -/
def MostPointsFirst (a b : ProfileRow) : Prop := b.lifetimePoints ≤ a.lifetimePoints

instance : DecidableRel MostPointsFirst := fun _ _ => inferInstanceAs (Decidable (_ ≤ _))

instance : Std.Total MostPointsFirst := ⟨fun _ _ => le_total _ _⟩

instance : IsTrans ProfileRow MostPointsFirst := ⟨fun _ _ _ h₁ h₂ => le_trans h₂ h₁⟩

/-- The where clause of `getUsersGrpc`. -/
def usersWhere (tierFilter : Option Tier) (userIds : List Uuid) (p : ProfileRow) : Bool :=
  tierFilter.all (fun tier => decide (p.tier = tier)) &&
    (userIds.isEmpty || decide (p.userId ∈ userIds))

/-- `getUsersGrpc`: the page and the total. -/
def getUsersGrpc (orderBy : List ProfileRow → List ProfileRow) (limit skip : ℤ)
    (tierFilter : Option Tier) (userIds : List Uuid) (profiles : List ProfileRow) :
    Except TxError (List AdminUserProfile × ℕ) := do
  let (take, skip) ← adminPagination limit skip
  let selected := profiles.filter (usersWhere tierFilter userIds)
  return ((page (orderBy selected) skip take).map (·.toMessage), selected.length)

/-! ### Achievements -/

/-- A row of the achievement table with its sort columns. -/
structure AchievementRow extends Achievement where
  sortOrder : ℤ
  createdAt : Instant

/-- `orderBy: [{ sortOrder: 'asc' }, { createdAt: 'desc' }]`. -/
def AdminOrder (a b : AchievementRow) : Prop :=
  a.sortOrder < b.sortOrder ∨ a.sortOrder = b.sortOrder ∧ b.createdAt ≤ a.createdAt

instance : DecidableRel AdminOrder := fun _ _ => inferInstanceAs (Decidable (_ ∨ _))

instance : Std.Total AdminOrder := ⟨fun a b => by
  unfold AdminOrder
  rcases lt_trichotomy a.sortOrder b.sortOrder with h | h | h
  · exact .inl (.inl h)
  · exact (le_total b.createdAt a.createdAt).imp (fun hc => .inr ⟨h, hc⟩) fun hc => .inr ⟨h.symm, hc⟩
  · exact .inr (.inl h)⟩

instance : IsTrans AchievementRow AdminOrder := ⟨fun a b c => by
  rintro (h₁ | ⟨h₁, h₁'⟩) (h₂ | ⟨h₂, h₂'⟩)
  · exact .inl (h₁.trans h₂)
  · exact .inl (h₂ ▸ h₁)
  · exact .inl (h₁ ▸ h₂)
  · exact .inr ⟨h₁.trans h₂, h₂'.trans h₁'⟩⟩

/-- `clampInt`. -/
def clampInt (v : Option ℤ) (min' max' : ℤ) : ℤ :=
  match v with
  | none => min'
  | some n => min (max n min') max'

/-- `normalizeAdminAchievementsPagination`: `limit` and `offset`. -/
def normalizeAdminAchievementsPagination (limit offset : Option ℤ) : ℕ × ℕ :=
  ((clampInt limit 1 200).toNat, (clampInt offset 0 1000000).toNat)

/-- `getAdminAchievementsGrpc`: the page and the total. -/
def getAdminAchievementsGrpc (orderBy : List AchievementRow → List AchievementRow)
    (includeInactive : Bool) (limit offset : Option ℤ) (achievements : List AchievementRow) :
    List AchievementRow × ℕ :=
  let (limit, offset) := normalizeAdminAchievementsPagination limit offset
  let selected := achievements.filter fun a => includeInactive || a.isActive
  (page (orderBy selected) offset limit, selected.length)

/-! ### Questions -/

section questions
variable (db : DB) (userId : Uuid) (profiles : List ProfileRow) (tierFilter : Option Tier)
  (userIds : List Uuid) (achievements : List AchievementRow) (includeInactive : Bool) (size : ℕ)

/-- `GetTransactions` with skip `k * size`. -/
def transactionsPage (orderBy : List PointsTransaction → List PointsTransaction) (k : ℕ) :
    Except TxError (List TransactionMessage) :=
  .ok (getUserTransactions orderBy userId size (k * size : ℕ) db).1

/-- `GetAdminTransactionHistory` with skip `k * size`. -/
def historyPage (orderBy : List PointsTransaction → List PointsTransaction) (k : ℕ) :
    Except TxError (List TransactionMessage) :=
  getTransactionHistoryGrpc orderBy userId size (k * size : ℕ) db

/-- `GetAdminUsers` with skip `k * size`. -/
def usersPage (orderBy : List ProfileRow → List ProfileRow) (k : ℕ) :
    Except TxError (List AdminUserProfile) :=
  (getUsersGrpc orderBy size (k * size : ℕ) tierFilter userIds profiles).map (·.1)

/-- `GetAdminAchievements` with offset `k * size`. -/
def achievementsPage (orderBy : List AchievementRow → List AchievementRow) (k : ℕ) :
    Except TxError (List AchievementRow) :=
  .ok (getAdminAchievementsGrpc orderBy includeInactive (some size) (some (k * size : ℕ)) achievements).1

end questions

/-- The offset of the first empty page. -/
def lastSkip {α : Type} (rows : List α) (size : ℕ) : ℕ := pageCount rows size * size

section answers
variable {db : DB} {userId : Uuid} {profiles : List ProfileRow} {tierFilter : Option Tier}
  {userIds : List Uuid} {achievements : List AchievementRow} {includeInactive : Bool} {size : ℕ}

theorem adminPagination_ok {skip : ℕ} (h₁ : 1 ≤ size) (h₂ : size ≤ 100)
    (hskip : skip ≤ 9007199254740991) : adminPagination size skip = .ok (size, skip) := by
  have hsize : isSafeInteger size = true := decide_eq_true (by rw [abs_of_nonneg] <;> omega)
  have hsafe : isSafeInteger skip = true := decide_eq_true (by rw [abs_of_nonneg] <;> omega)
  have hlow : ¬(size : ℤ) < 1 := by omega
  have hhigh : ¬100 < (size : ℤ) := by omega
  have hneg : ¬(skip : ℤ) < 0 := by omega
  have htake : (if (size : ℤ) = 0 then 50 else (size : ℤ)) = size := if_neg (by omega)
  unfold adminPagination
  simp only [htake, hsize, hsafe, hlow, hhigh, hneg, decide_false, Bool.not_true, Bool.or_self,
    Bool.false_eq_true, if_false, Int.toNat_natCast]

theorem adminPagination_error {skip : ℕ} (hskip : 9007199254740991 < skip) :
    ∃ e, adminPagination size skip = .error e := by
  have hlarge : isSafeInteger skip = false := decide_eq_false (by rw [abs_of_nonneg] <;> omega)
  unfold adminPagination
  simp [hlarge]

theorem transactions_answers (h₁ : 1 ≤ size) (h₂ : size ≤ 100) :
    Answers (db.ledgerOf userId) size (·.toMessage) (transactionsPage db userId size) := by
  intro orderBy _ k _
  have htake : (min (max (size : ℤ) 1) 100).toNat = size := by omega
  have hskip : (max ((k * size : ℕ) : ℤ) 0).toNat = k * size := by
    rw [max_eq_left (Int.natCast_nonneg _), Int.toNat_natCast]
  unfold transactionsPage getUserTransactions
  rw [htake, hskip]

/-- A listing under `adminPagination`: pages, and no answer beyond the safe integers. -/
def AdminPaginated {α β : Type} (rows : List α) (size : ℕ) (g : α → β)
    (answer : (List α → List α) → ℕ → Except TxError (List β)) : Prop :=
  ∀ orderBy k,
    (k * size ≤ 9007199254740991 →
      answer orderBy k = .ok ((page (orderBy rows) (k * size) size).map g)) ∧
    (9007199254740991 < k * size → ∃ e, answer orderBy k = .error e)

theorem history_paginated (h₁ : 1 ≤ size) (h₂ : size ≤ 100) :
    AdminPaginated (db.ledgerOf userId) size (·.toMessage) (historyPage db userId size) := by
  intro orderBy k
  unfold historyPage getTransactionHistoryGrpc
  constructor
  · intro hk
    rw [adminPagination_ok h₁ h₂ hk]
    rfl
  · intro hk
    obtain ⟨e, he⟩ := @adminPagination_error size _ hk
    rw [he]
    exact ⟨e, rfl⟩

theorem users_paginated (h₁ : 1 ≤ size) (h₂ : size ≤ 100) :
    AdminPaginated (profiles.filter (usersWhere tierFilter userIds)) size (·.toMessage)
      (usersPage profiles tierFilter userIds size) := by
  intro orderBy k
  unfold usersPage getUsersGrpc
  constructor
  · intro hk
    rw [adminPagination_ok h₁ h₂ hk]
    rfl
  · intro hk
    obtain ⟨e, he⟩ := @adminPagination_error size _ hk
    rw [he]
    exact ⟨e, rfl⟩

/-- Such a listing is read in full exactly if it ends within the safe integers and ties lie on one
    page. -/
theorem AdminPaginated.returnsAll_iff {α β ι : Type} {le : α → α → Prop} [DecidableRel le]
    [Std.Total le] [IsTrans α le] {rows : List α} {g : α → β} {name : α → ι} {named : β → ι}
    {answer : (List α → List α) → ℕ → Except TxError (List β)}
    (h : AdminPaginated rows size g answer) (hname : ∀ a, named (g a) = name a) (h₁ : 1 ≤ size)
    (hnd : (rows.map name).Nodup) : ReturnsAll le rows name named answer ↔
      lastSkip rows size ≤ 9007199254740991 ∧ OnePage le rows size := by
  by_cases hlast : lastSkip rows size ≤ 9007199254740991
  · have hanswers : Answers rows size g answer := fun orderBy _ k hk =>
      (h orderBy k).1 ((Nat.mul_le_mul_right size hk).trans hlast)
    rw [hanswers.returnsAll_iff hname h₁ hnd]
    exact (and_iff_right hlast).symm
  · refine iff_of_false (not_returnsAll fun orderBy hadm n hok hend => ?_) fun hall => hlast hall.1
    rcases lt_or_ge n (pageCount rows size) with hn | hn
    · obtain ⟨p, hp⟩ := hok n le_rfl
      rcases le_or_gt (n * size) 9007199254740991 with hk | hk
      · have hpage := (h orderBy n).1 hk
        rw [hend, Except.ok.injEq, eq_comm, List.map_eq_nil_iff, page_eq_nil h₁,
          hadm.1.length_eq, ← pageCount_le_iff h₁] at hpage
        omega
      · obtain ⟨e, he⟩ := (h orderBy n).2 hk
        rw [hend] at he
        cases he
    · obtain ⟨p, hp⟩ := hok _ hn
      obtain ⟨e, he⟩ := (h orderBy (pageCount rows size)).2 (not_le.1 hlast)
      rw [hp] at he
      cases he

theorem clampInt_size (h₁ : 1 ≤ size) (h₂ : size ≤ 200) :
    (clampInt (some (size : ℤ)) 1 200).toNat = size := by
  unfold clampInt
  simp only
  omega

theorem clampInt_offset (offset : ℕ) :
    (clampInt (some (offset : ℤ)) 0 1000000).toNat = min offset 1000000 := by
  unfold clampInt
  simp only
  omega

theorem achievements_answers (h₁ : 1 ≤ size) (h₂ : size ≤ 200)
    (hlen : (achievements.filter fun a => includeInactive || a.isActive).length ≤ 1000000) :
    Answers (achievements.filter fun a => includeInactive || a.isActive) size id
      (achievementsPage achievements includeInactive size) := by
  intro orderBy hperm k _
  have hpage : ∀ order : List AchievementRow, order.length ≤ 1000000 →
      page order (min (k * size) 1000000) size = page order (k * size) size := fun order hlen => by
    rcases le_total (k * size) 1000000 with hle | hle
    · rw [min_eq_left hle]
    · rw [min_eq_right hle, (page_eq_nil h₁).2 hlen, (page_eq_nil h₁).2 (hlen.trans hle)]
  unfold achievementsPage getAdminAchievementsGrpc normalizeAdminAchievementsPagination
  simp only [clampInt_size h₁ h₂, clampInt_offset, hpage _ (hperm.length_eq.trans_le hlen), List.map_id]

/-- Beyond the largest offset the last rows are answered again and again. -/
theorem achievements_endless (h₁ : 1 ≤ size) (h₂ : size ≤ 200)
    (hlen : 1000000 < (achievements.filter fun a => includeInactive || a.isActive).length)
    {name named : AchievementRow → Uuid} :
    ¬ReturnsAll AdminOrder (achievements.filter fun a => includeInactive || a.isActive) name named
      (achievementsPage achievements includeInactive size) := by
  refine not_returnsAll fun orderBy hadm n _ hend => ?_
  have hpage := Except.ok.inj hend
  unfold getAdminAchievementsGrpc normalizeAdminAchievementsPagination at hpage
  simp only [clampInt_size h₁ h₂, clampInt_offset] at hpage
  rw [page_eq_nil h₁, hadm.1.length_eq] at hpage
  omega

end answers

/-- For every content of the tables, every filter and every page size the listings admit: asking for
    one page after the other until one is empty returns every matching row exactly once, whatever
    the order of ties at each question, if and only if ties lie on one page (and, where the offset
    is bounded, the listing does not go beyond the bound). -/
theorem listings_return_all {db : DB} (hledger : (db.pointsTransactions.map (·.id)).Nodup)
    {profiles : List ProfileRow} (hprofiles : (profiles.map (·.userId)).Nodup)
    {achievements : List AchievementRow} (hachievements : (achievements.map (·.id)).Nodup) :
    (∀ (userId : Uuid) (size : ℕ), 1 ≤ size → size ≤ 100 →
      (ReturnsAll NewestFirst (db.ledgerOf userId) (·.id) (·.id) (transactionsPage db userId size) ↔
        OnePage NewestFirst (db.ledgerOf userId) size) ∧
      (ReturnsAll NewestFirst (db.ledgerOf userId) (·.id) (·.id) (historyPage db userId size) ↔
        lastSkip (db.ledgerOf userId) size ≤ 9007199254740991 ∧
          OnePage NewestFirst (db.ledgerOf userId) size)) ∧
    (∀ (tierFilter : Option Tier) (userIds : List Uuid) (size : ℕ), 1 ≤ size → size ≤ 100 →
      let selected := profiles.filter (usersWhere tierFilter userIds)
      (ReturnsAll MostPointsFirst selected (·.userId) (·.userId)
          (usersPage profiles tierFilter userIds size) ↔
        lastSkip selected size ≤ 9007199254740991 ∧ OnePage MostPointsFirst selected size)) ∧
    ∀ (includeInactive : Bool) (size : ℕ), 1 ≤ size → size ≤ 200 →
      let selected := achievements.filter fun a => includeInactive || a.isActive
      (ReturnsAll AdminOrder selected (·.id) (·.id)
          (achievementsPage achievements includeInactive size) ↔
        selected.length ≤ 1000000 ∧ OnePage AdminOrder selected size) := by
  refine ⟨fun userId size h₁ h₂ => ?ledger, fun tierFilter userIds size h₁ h₂ => ?users,
    fun includeInactive size h₁ h₂ => ?achievements⟩
  case ledger =>
    have hnd : ((db.ledgerOf userId).map (·.id)).Nodup :=
      (List.filter_sublist.map _).nodup hledger
    exact ⟨(transactions_answers h₁ h₂).returnsAll_iff (fun _ => rfl) h₁ hnd,
      (history_paginated h₁ h₂).returnsAll_iff (fun _ => rfl) h₁ hnd⟩
  case users =>
    exact (users_paginated h₁ h₂).returnsAll_iff (fun _ => rfl) h₁
      ((List.filter_sublist.map _).nodup hprofiles)
  case achievements =>
    by_cases hlen : (achievements.filter fun a => includeInactive || a.isActive).length ≤ 1000000
    · exact ((achievements_answers h₁ h₂ hlen).returnsAll_iff (fun _ => rfl) h₁
        ((List.filter_sublist.map _).nodup hachievements)).trans (and_iff_right hlen).symm
    · exact iff_of_false (achievements_endless h₁ h₂ (not_le.1 hlen)) fun hall => hlen hall.1

/-- Two new profiles, both without points. -/
def newcomers : List ProfileRow :=
  [{ userId := Uuid.nil }, { userId := ⟨"00000000-0000-0000-0000-000000000001", by decide⟩ }]

theorem listings_return_all_newcomers :
    ReturnsAll MostPointsFirst (newcomers.filter (usersWhere none [])) (·.userId) (·.userId)
      (usersPage newcomers none [] 2) :=
  ((@listings_return_all DB.empty List.nodup_nil newcomers (by decide) [] List.nodup_nil).2.1 none []
    2 (by decide) (by decide)).2 ⟨by decide, by decide⟩

/-- Read one by one, one of them may be returned twice and the other never. -/
theorem newcomers_repeated :
    ¬ReturnsAll MostPointsFirst (newcomers.filter (usersWhere none [])) (·.userId) (·.userId)
      (usersPage newcomers none [] 1) := by
  have hnd : ((newcomers.filter (usersWhere none [])).map (·.userId)).Nodup := by decide
  have hpages := @users_paginated newcomers none [] 1 (by decide) (by decide)
  have htied : ¬OnePage MostPointsFirst (newcomers.filter (usersWhere none [])) 1 := by decide
  exact fun hall => htied ((hpages.returnsAll_iff (fun _ => rfl) (by decide) hnd).1 hall).2

end CinemaLoyalty
