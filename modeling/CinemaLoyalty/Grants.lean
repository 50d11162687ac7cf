import CinemaLoyalty.Compensation
import CinemaLoyalty.Concurrency
import CinemaLoyalty.Tiers

/-! @svc Grants | layer:property | source:src/loyalty/loyalty.service.ts (grantBirthdayBonusInTransaction, processUserDateOfBirthSet, grantBirthdayBonuses), prisma/migrations

    The yearly birthday grant is paid exactly once. A call that commits writes a grant together with
    its ledger row, its points and nothing else of either kind (`effect_grants`); so grants and
    birthday rows stay paired (`GrantsPaid`) however setters and jobs interleave. The job passes on the
    profiles whose date it read earlier: here any user at any time. -/

namespace CinemaLoyalty
open Txn

/-- The ledger row `t` pays the grant `g` of user `u`. -/
structure Pays (t : PointsTransaction) (u : Uuid) (g : UserBonusGrant) : Prop where
  named : g.pointsTransactionId = some t.id
  user : t.userId = u
  type : t.type = .EARN_BIRTHDAY
  points : t.points = g.points

/-- The ledger rows of birthday grants. -/
def DB.birthdayRows (db : DB) : List PointsTransaction :=
  db.pointsTransactions.filter (·.type = .EARN_BIRTHDAY)

/-- Grants and birthday rows are paired one to one. -/
structure GrantsPaid (db : DB) : Prop where
  paid : ∀ u ty y g, db.userBonusGrants (u, ty, y) = some g →
    ty = BIRTHDAY_BONUS_GRANT_TYPE ∧ y = getUtcLocalYear g.grantedAt ∧
      ∃! t, t ∈ db.birthdayRows ∧ Pays t u g
  granted : ∀ t ∈ db.birthdayRows, ∃! key : Uuid × String × ℤ,
    ∃ g, db.userBonusGrants key = some g ∧ Pays t key.1 g

/-- A grant of this year to `u`, made from `db` to `db'`: one new row in each table, and the points on
    every counter of a profile whose stored birthday is today. -/
structure Granted (now : Instant) (db db' : DB) (u : Uuid) (t : PointsTransaction) : Prop where
  new : db.userBonusGrants (u, BIRTHDAY_BONUS_GRANT_TYPE, getUtcLocalYear now) = none
  row : Appends db db' t
  user : t.userId = u
  type : t.type = .EARN_BIRTHDAY
  points : t.points = LOYALTY_RULES.BIRTHDAY_BONUS_POINTS
  grants : ∀ key, db'.userBonusGrants key =
    if key = (u, BIRTHDAY_BONUS_GRANT_TYPE, getUtcLocalYear now) then
      some { points := LOYALTY_RULES.BIRTHDAY_BONUS_POINTS
             pointsTransactionId := some t.id
             grantedAt := now }
    else db.userBonusGrants key
  raised : ∃ p, db'.profiles u = some p ∧ p.birthdayDate.any (isSameUtcMonthDay · now) = true ∧
    p.balance = (db.profileOrDefault u).balance + LOYALTY_RULES.BIRTHDAY_BONUS_POINTS ∧
    p.lifetimePoints =
      (db.profileOrDefault u).lifetimePoints + LOYALTY_RULES.BIRTHDAY_BONUS_POINTS ∧
    p.yearPoints = (db.profileOrDefault u).yearPoints + LOYALTY_RULES.BIRTHDAY_BONUS_POINTS

/-- What a committed call does to the grants and the birthday rows. -/
inductive GrantStep (now : Instant) (db db' : DB) : Prop
  | still (hg : db'.userBonusGrants = db.userBonusGrants) (hr : db'.birthdayRows = db.birthdayRows)
  | granted {u : Uuid} {t : PointsTransaction} (h : Granted now db db' u t)

section step
variable {db db' : DB} {now : Instant}

/-- A ledger that grows by a row of another type. -/
theorem birthdayRows_posted {t : PointsTransaction}
    (hl : db'.pointsTransactions = db.pointsTransactions ++ [t]) (ht : t.type ≠ .EARN_BIRTHDAY) :
    db'.birthdayRows = db.birthdayRows := by
  unfold DB.birthdayRows
  rw [hl, List.filter_append, List.filter_cons_of_neg (by simpa using ht), List.filter_nil,
    List.append_nil]

theorem birthdayRows_same (hl : db'.pointsTransactions = db.pointsTransactions) :
    db'.birthdayRows = db.birthdayRows := by
  unfold DB.birthdayRows; rw [hl]

/-- A grant made on `x`, which differs from `db` in the stored date of the user at most. -/
theorem outcome_grants {x : DB} {userId : UuidText} {res : BirthdayGrantResult}
    (hg : x.userBonusGrants = db.userBonusGrants)
    (hl : x.pointsTransactions = db.pointsTransactions)
    (hp : ∀ p, x.profiles userId.value = some p →
      p.balance = (db.profileOrDefault userId.value).balance ∧
      p.lifetimePoints = (db.profileOrDefault userId.value).lifetimePoints ∧
      p.yearPoints = (db.profileOrDefault userId.value).yearPoints)
    (h : GrantOutcome x userId now res db') : GrantStep now db db' := by
  cases h with
  | unchanged => exact .still hg (birthdayRows_same hl)
  | @granted p hn hprof hb =>
    have hledger : ∀ u, x.ledgerOf u = db.ledgerOf u := fun u => by unfold DB.ledgerOf; rw [hl]
    obtain ⟨hbalance, hlifetime, hyear⟩ := hp p hprof
    refine .granted (u := userId.value) (t := x.numbered
      (birthdayRow userId (p.balance + LOYALTY_RULES.BIRTHDAY_BONUS_POINTS) now)) ⟨?_, ⟨?_, ?_⟩, rfl,
      rfl, rfl, ?_, p.birthdayGrant p.birthdayTier now, ?_, hb, ?_, ?_, ?_⟩
    · rw [← hg]; exact hn
    · simp [DB.birthdayGranted, DB.numbered, hl]
    · rw [numbered_seq]; exact congrArg List.length (hledger _)
    · intro key
      simp [DB.birthdayGranted, hg, DB.numbered]
    · simp [DB.birthdayGranted, hprof]
    · rw [← hbalance]; rfl
    · rw [← hlifetime]; rfl
    · rw [← hyear]; rfl

theorem progressed_grants {eventId : String} {userId : Uuid} {achievement : Achievement}
    {targetCount : ℤ} (h : ProgressOutcome db eventId userId achievement targetCount now db') :
    GrantStep now db db' := by
  cases h with
  | duplicate _ _ => exact .still (by simp) (birthdayRows_same (by simp))
  | swallowed _ _ _ => exact .still (by simp [DB.marked]) (birthdayRows_same (by simp [DB.marked]))
  | advanced _ _ _ => exact .still (by simp [DB.marked]) (birthdayRows_same (by simp [DB.marked]))
  | unlocked _ _ _ _ =>
    exact .still (by simp [DB.marked, DB.unlocked]) (birthdayRows_same (by simp [DB.marked, DB.unlocked]))
  | rewarded _ _ _ _ =>
    refine .still (by simp [DB.marked, DB.unlocked, DB.rewarded, DB.post])
      (birthdayRows_posted (t := db.numbered (rewardRow userId achievement
        ((db.profileOrDefault userId).balance + achievement.rewardPoints) now)) ?_ ?_)
    · simp [DB.rewarded, DB.unlocked, DB.marked, DB.post, DB.numbered]
    · simp [rewardRow]

/-- Only the setter and the job's step write a grant or a birthday row, both in one commit. -/
theorem effect_grants {c : Call} (h : Effect now db c db') : GrantStep now db db' := by
  cases h with
  | still _ => exact .still rfl rfl
  | @deducted _ _ _ _ command p _ _ _ =>
    refine .still (by simp [DB.deducted]) (birthdayRows_posted (t := _) (by simp [DB.deducted]; rfl) ?_)
    simp [PointCommand.debitRow]
  | @refunded _ _ _ _ command p debit _ _ _ =>
    refine .still (by simp [DB.refunded]) (birthdayRows_posted (t := _) (by simp [DB.refunded]; rfl) ?_)
    simp [PointCommand.refundRow]
  | purchaseSeen _ _ => exact .still (by simp) (birthdayRows_same (by simp))
  | @purchased msg n rows _ _ _ =>
    by_cases hn : n > 0
    · refine .still (by simp [DB.purchased, DB.credited, hn, DB.post]) (birthdayRows_posted
        (t := db.numbered (msg.earnedRow n ((db.profileOrDefault msg.userId.value).balance + n) now))
        (by simp [DB.purchased, DB.credited, hn, DB.post, DB.numbered]) ?_)
      rw [numbered_type]
      show resolveTransactionType msg.eventType ≠ _
      cases msg.eventType <;> decide
    · exact .still (by simp [DB.purchased, DB.credited, hn])
        (birthdayRows_same (by simp [DB.purchased, DB.credited, hn]))
  | @birthdaySet _ userId _ d _ _ h =>
    refine outcome_grants (by simp [DB.birthdaySet]) (by simp [DB.birthdaySet]) (fun p hp => ?_) h
    simp only [DB.birthdaySet, profiles_updateProfile, if_true, ensureProfile_profiles,
      Option.map_some, Option.some.injEq] at hp
    subst hp
    exact ⟨rfl, rfl, rfl⟩
  | birthdayGranted h =>
    refine outcome_grants rfl rfl (fun p hp => ?_) h
    rw [profileOrDefault_of hp]
    exact ⟨rfl, rfl, rfl⟩
  | @adjusted userId adminId reason points =>
    refine .still (by simp [DB.adjusted, DB.post]) (birthdayRows_posted
      (t := db.numbered (adjustmentRow userId adminId points reason
        ((db.profileOrDefault userId.value).balance + points) now))
      (by simp [DB.adjusted, DB.post, DB.numbered]) ?_)
    simp only [numbered_type, adjustmentRow]
    split <;> simp
  | @vipGranted userId adminId reason =>
    exact .still (by simp [DB.vipGranted, DB.post]) (birthdayRows_posted
      (t := db.numbered (vipRow userId adminId reason (db.profileOrDefault userId.value).balance now))
      (by simp [DB.vipGranted, DB.post, DB.numbered]) (by simp [vipRow]))
  | progressed h => exact progressed_grants h
  | @expired userId p _ =>
    exact .still (by simp [DB.post]) (birthdayRows_posted
      (t := db.numbered (expireRow userId p.balance now)) (by simp [DB.post, DB.numbered])
      (by simp [expireRow]))
  | annualReset _ => exact .still (by simp) (birthdayRows_same (by simp))
  | goldReset _ _ => exact .still (by simp) (birthdayRows_same (by simp))
  | reserved _ _ _ _ _ => exact .still (by simp [DB.reserved]) (birthdayRows_same (by simp [DB.reserved]))
  | rolledBack _ _ _ =>
    unfold DB.rolledBack
    simp only
    split
    · exact .still (by simp) (birthdayRows_same (by simp))
    · exact .still (by simp) (birthdayRows_same (by simp))

section granted
variable {u : Uuid} {t : PointsTransaction}

theorem Granted.mem_rows (h : Granted now db db' u t) (q : PointsTransaction) :
    q ∈ db'.birthdayRows ↔ q ∈ db.birthdayRows ∨ q = t := by
  unfold DB.birthdayRows
  simp only [List.mem_filter, h.row.mem, decide_eq_true_eq]
  constructor
  · rintro ⟨hq | rfl, hty⟩
    · exact .inl ⟨hq, hty⟩
    · exact .inr rfl
  · rintro (⟨hq, hty⟩ | rfl)
    · exact ⟨.inl hq, hty⟩
    · exact ⟨.inr rfl, h.type⟩

/-- The row of a grant is new. -/
theorem Granted.fresh (h : Granted now db db' u t) (hc : Compensated db) :
    ∀ q ∈ db.birthdayRows, q.id ≠ t.id := fun _ hq =>
  h.row.fresh_id hc (List.mem_of_mem_filter hq)

/-- An older grant names an older row. -/
theorem Granted.unnamed (h : Granted now db db' u t) (hc : Compensated db) (hp : GrantsPaid db)
    {key : Uuid × String × ℤ} {g : UserBonusGrant} (hg : db.userBonusGrants key = some g) :
    g.pointsTransactionId ≠ some t.id := by
  obtain ⟨v, ty, y⟩ := key
  intro hid
  obtain ⟨-, -, q, ⟨hq, hpays⟩, -⟩ := hp.paid v ty y g hg
  rw [hpays.named] at hid
  exact h.fresh hc q hq (Option.some.inj hid)

/-- Every grant is paid by one row after a grant. -/
theorem Granted.paid (h : Granted now db db' u t) (hc : Compensated db) (hp : GrantsPaid db)
    (v : Uuid) (ty : String) (y : ℤ) (g : UserBonusGrant)
    (hg : db'.userBonusGrants (v, ty, y) = some g) :
    ty = BIRTHDAY_BONUS_GRANT_TYPE ∧ y = getUtcLocalYear g.grantedAt ∧
      ∃! t, t ∈ db'.birthdayRows ∧ Pays t v g := by
  rw [h.grants] at hg
  split at hg
  · rename_i hkey
    cases hkey
    cases hg
    refine ⟨rfl, rfl, t, ⟨(h.mem_rows t).2 (.inr rfl), rfl, h.user, h.type, h.points⟩, ?_⟩
    rintro q ⟨hq, hpays⟩
    rcases (h.mem_rows q).1 hq with hq | rfl
    · exact (h.fresh hc q hq (Option.some.inj hpays.named).symm).elim
    · rfl
  · obtain ⟨hty, hy, q, ⟨hq, hpays⟩, huniq⟩ := hp.paid v ty y g hg
    refine ⟨hty, hy, q, ⟨(h.mem_rows q).2 (.inl hq), hpays⟩, ?_⟩
    rintro r ⟨hr, hpays'⟩
    rcases (h.mem_rows r).1 hr with hr | rfl
    · exact huniq r ⟨hr, hpays'⟩
    · exact (h.unnamed hc hp hg hpays'.named).elim

/-- Every birthday row pays one grant after a grant. -/
theorem Granted.granted (h : Granted now db db' u t) (hc : Compensated db) (hp : GrantsPaid db)
    (q : PointsTransaction) (hq : q ∈ db'.birthdayRows) : ∃! key : Uuid × String × ℤ,
      ∃ g, db'.userBonusGrants key = some g ∧ Pays q key.1 g := by
  rcases (h.mem_rows q).1 hq with hq | rfl
  · obtain ⟨key, ⟨g, hg, hpays⟩, huniq⟩ := hp.granted q hq
    have hkey : key ≠ (u, BIRTHDAY_BONUS_GRANT_TYPE, getUtcLocalYear now) := by
      rintro rfl
      rw [h.new] at hg
      cases hg
    refine ⟨key, ⟨g, by rw [h.grants, if_neg hkey]; exact hg, hpays⟩, ?_⟩
    rintro key' ⟨g', hg', hpays'⟩
    rw [h.grants] at hg'
    split at hg'
    · cases hg'
      exact (h.fresh hc q hq (Option.some.inj hpays'.named).symm).elim
    · exact huniq key' ⟨g', hg', hpays'⟩
  · refine ⟨_, ⟨_, by rw [h.grants, if_pos rfl], rfl, h.user, h.type, h.points⟩, ?_⟩
    rintro key' ⟨g', hg', hpays'⟩
    rw [h.grants] at hg'
    split at hg'
    · assumption
    · exact (h.unnamed hc hp hg' hpays'.named).elim

/-- The pairing holds after a grant: its row is new, so no other grant names it and it is named once. -/
theorem grantsPaid_granted (hc : Compensated db) (hp : GrantsPaid db)
    (h : Granted now db db' u t) : GrantsPaid db' :=
  ⟨h.paid hc hp, h.granted hc hp⟩

end granted

theorem grantsPaid_step (hc : Compensated db) (hp : GrantsPaid db) (hs : GrantStep now db db') :
    GrantsPaid db' := by
  cases hs with
  | still hg hr => exact ⟨by rw [hg, hr]; exact hp.paid, by rw [hg, hr]; exact hp.granted⟩
  | granted h => exact grantsPaid_granted hc hp h

end step

section step
variable {db db' : DB} {now : Instant} {key : Uuid × String × ℤ}

/-- Grants stay. -/
theorem GrantStep.keeps (h : GrantStep now db db') (hg : (db.userBonusGrants key).isSome = true) :
    (db'.userBonusGrants key).isSome = true := by
  cases h with
  | still hsame _ => rwa [hsame]
  | granted h =>
    rw [h.grants]
    split
    · rfl
    · exact hg

/-- A new grant is one of the year, on the stored birthday. -/
theorem GrantStep.new (h : GrantStep now db db') (hn : db.userBonusGrants key = none)
    (hg : (db'.userBonusGrants key).isSome = true) :
    key.2.2 = getUtcLocalYear now ∧
      ∃ p, db'.profiles key.1 = some p ∧ p.birthdayDate.any (isSameUtcMonthDay · now) = true := by
  cases h with
  | still hsame _ =>
    rw [hsame, hn] at hg
    cases hg
  | granted h =>
    rw [h.grants] at hg
    split at hg
    · rename_i hkey
      obtain ⟨p, hp, hborn, -⟩ := h.raised
      rw [hkey]
      exact ⟨rfl, p, hp, hborn⟩
    · rw [hn] at hg
      cases hg

end step

/-! ### Over runs -/

/-- Debits are compensated and grants paired: what every call keeps. -/
def Paired (db : DB) : Prop := Compensated db ∧ GrantsPaid db

theorem paired_changes {db db' : DB} (hc : Compensated db) (h : Changes (fun _ => True) db db') :
    Compensated db' :=
  changes_invariant (I := Compensated)
    (fun _ _ hI h => compensated_step hI (change_ledger (fun _ _ _ _ => trivial) h)) h hc

theorem paired_run {c : Call} {now : Instant} {a : Answer} {db db' : DB} (h : Paired db)
    (hr : db.run (c.tx now) = .ok (a, db')) : Paired db' :=
  ⟨paired_changes h.1 (tx_changes trivial hr),
    grantsPaid_step h.1 h.2 (effect_grants (tx_effect hr))⟩

/-- Every operation is a step of the grants. -/
theorem op_grants (op : Op) (db : DB) : ∃ now, GrantStep now db (op.exec db) := by
  have heff := op_effect op db
  generalize op.exec db = db' at heff ⊢
  cases heff with
  | call heff => exact ⟨_, effect_grants heff⟩
  | ensured u => exact ⟨0, .still (by simp) (birthdayRows_same (by simp))⟩
  | defined _ achievements => exact ⟨0, .still rfl (birthdayRows_same rfl)⟩

theorem paired_op {db : DB} (op : Op) (h : Paired db) : Paired (op.exec db) := by
  obtain ⟨now, hstep⟩ := op_grants op db
  exact ⟨paired_changes h.1 (op_changes op db fun _ _ _ => trivial), grantsPaid_step h.1 h.2 hstep⟩

theorem paired_empty : Paired DB.empty :=
  ⟨compensated_start rfl fun _ => rfl, ⟨fun _ _ _ _ h => (nomatch h), fun _ h => (nomatch h)⟩⟩

theorem run_paired (ops : List Op) {db : DB} (h : Paired db) : Paired (db.runOps ops) := by
  induction ops generalizing db with
  | nil => exact h
  | cons op ops ih => exact ih (paired_op op h)

/-- After any operations, any calls overlapping in any way: a user has at most one grant for a UTC
    year; grants and `EARN_BIRTHDAY` rows correspond one to one, with the same user and points; and a
    step of the interleaving writes neither, or commits one grant with its row, its points on every
    counter and a stored birthday that is the day of the call's clock reading. -/
theorem birthday_grants_paid {ι : Type} [DecidableEq ι] (calls : ι → Call) (clock : ι → Instant)
    (before : List Op) (M : Machine ι Stmt TxError DB Write Resource Answer)
    (hr : Reach pg (fun i => (calls i).tx (clock i)) (DB.empty.runOps before) M) :
    (∀ u y ty ty' g g', M.db.userBonusGrants (u, ty, y) = some g →
      M.db.userBonusGrants (u, ty', y) = some g' → ty = ty' ∧ g = g') ∧
    (∀ u ty y g, M.db.userBonusGrants (u, ty, y) = some g →
      y = getUtcLocalYear g.grantedAt ∧ ∃! t, t ∈ M.db.birthdayRows ∧ Pays t u g) ∧
    (∀ t ∈ M.db.birthdayRows, ∃! key : Uuid × String × ℤ,
      ∃ g, M.db.userBonusGrants key = some g ∧ Pays t key.1 g) ∧
    ∀ M', Step pg (fun i => (calls i).tx (clock i)) M M' →
      (M'.db.userBonusGrants = M.db.userBonusGrants ∧ M'.db.birthdayRows = M.db.birthdayRows) ∨
        ∃ i a u t, M'.txs i = .done a ∧ Granted (clock i) M.db M'.db u t := by
  have hpaid : GrantsPaid M.db :=
    (reach_keeps (I := Paired) (run_paired before paired_empty) (fun _ _ _ _ h hrun => paired_run h hrun) hr).2
  refine ⟨?once, fun u ty y g hg => (hpaid.paid u ty y g hg).2, hpaid.granted, ?commits⟩
  case once =>
    intro u y ty ty' g g' hg hg'
    obtain rfl := (hpaid.paid u ty y g hg).1
    obtain rfl := (hpaid.paid u ty' y g' hg').1
    rw [hg] at hg'
    exact ⟨rfl, Option.some.inj hg'⟩
  case commits =>
    intro M' hs
    rcases step_effect hr hs with heq | ⟨i, a, hdone, heff⟩
    · rw [heq]; exact .inl ⟨rfl, rfl⟩
    · cases effect_grants heff with
      | still hg hl => exact .inl ⟨hg, hl⟩
      | granted h => exact .inr ⟨i, a, _, _, hdone, h⟩

/-- A date of birth set on the first birthday. -/
def bornToday : Op :=
  .call (.processUserDateOfBirthSet (fun _ => none) ⟨Uuid.nil.text, .nil, nilText_named⟩ "1970-01-01") 0

theorem birthday_grants_paid_once :
    ∃ t, t ∈ (DB.empty.runOps [bornToday]).birthdayRows ∧ t.userId = .nil ∧ t.points = 100 := by
  obtain ⟨g, hg⟩ : ∃ g, (DB.empty.runOps [bornToday]).userBonusGrants
      (.nil, BIRTHDAY_BONUS_GRANT_TYPE, 1970) = some g := ⟨_, rfl⟩
  have hreach : Reach pg (fun _ : Unit => (Call.grantBirthdayBonusForUser
      ⟨Uuid.nil.text, .nil, nilText_named⟩).tx 0) (DB.empty.runOps [bornToday])
      (.start _ (DB.empty.runOps [bornToday])) := .refl
  obtain ⟨-, t, ⟨ht, hpays⟩, -⟩ := (birthday_grants_paid
    (fun _ => .grantBirthdayBonusForUser ⟨Uuid.nil.text, .nil, nilText_named⟩) (fun _ => 0)
    [bornToday] _ hreach).2.1 .nil BIRTHDAY_BONUS_GRANT_TYPE 1970 g hg
  exact ⟨t, ht, hpays.user, hpays.points.trans (by cases hg; rfl)⟩

end CinemaLoyalty
