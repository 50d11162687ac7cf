import Mathlib.Data.List.Pairwise
import CinemaLoyalty.Effects

/-! @svc GoldReservations | layer:property | source:src/loyalty/loyalty.service.ts (useGoldUpgrade, rollbackGoldUpgrade), src/loyalty/loyalty-expiration.service.ts (goldReset), prisma/migrations, test/integration/gold-reservation.integration-spec.ts

    Who holds the Gold upgrade of a month. Reservation rows are only appended and released, one per
    order and one unreleased per month, and the mirror on the profile never names a month that nobody
    holds (`Reserved`). A call writes rows only as a use or a rollback of its own order
    (`effect_gold`). -/

namespace CinemaLoyalty
open Txn

/-- The mirror on the profile of a user, none without a profile. -/
def DB.mirrorOf (db : DB) (u : Uuid) : Option MonthKey := (db.profileOrDefault u).goldUpgradeUsedMonth

/-- The migrated state: the rows are one unreleased reservation without an order for each mirror. -/
structure Migrated (db : DB) : Prop where
  backed : ∀ u m, db.mirrorOf u = some m →
    { userId := u, month := m, orderId := none } ∈ db.goldUpgradeReservations
  legacy : ∀ r ∈ db.goldUpgradeReservations, r.orderId = none ∧ r.releasedAt = none ∧
    (db.profiles r.userId).isSome = true ∧ db.mirrorOf r.userId = some r.month
  once : db.goldUpgradeReservations.Nodup

/-- What can happen to profiles and reservations: any operation, and a tier changed from outside. -/
inductive GoldAct
  | operate (op : Op)
  | changeTier (u : Uuid) (tier : Tier)

/-- The database with the tier of a profile changed. -/
def DB.withTier (db : DB) (u : Uuid) (tier : Tier) : DB :=
  db.apply (.updateProfile u { db.profileOrDefault u with tier })

def GoldAct.exec (db : DB) : GoldAct → DB
  | .operate op => op.exec db
  | .changeTier u tier => db.withTier u tier

/-- The database after such a run. -/
def DB.runGold (db : DB) (acts : List GoldAct) : DB := acts.foldl GoldAct.exec db

/-- The two rows do not exclude each other. -/
def GoldUpgradeReservation.Apart (r r' : GoldUpgradeReservation) : Prop := r.conflicts r' = false

theorem apart_iff {r r' : GoldUpgradeReservation} : r.Apart r' ↔ (r.userId = r'.userId →
    (r.orderId.isSome = true → r.orderId ≠ r'.orderId) ∧
      (r.month = r'.month → r.releasedAt = none → r'.releasedAt ≠ none)) := by
  unfold GoldUpgradeReservation.Apart GoldUpgradeReservation.conflicts
  cases r.releasedAt <;> cases r'.releasedAt <;> cases r.orderId <;> cases r'.orderId <;> simp

instance : Std.Symm GoldUpgradeReservation.Apart where
  symm r r' h := by
    rw [apart_iff] at h ⊢
    refine fun hu => ⟨fun hsome ho => ?_, fun hm hopen' hopen => (h hu.symm).2 hm.symm hopen hopen'⟩
    exact (h hu.symm).1 (ho ▸ hsome) ho.symm

/-- Rows that exclude each other are one row. -/
theorem apart_unique {rows : List GoldUpgradeReservation} {r r' : GoldUpgradeReservation}
    (h : rows.Pairwise GoldUpgradeReservation.Apart) (hr : r ∈ rows) (hr' : r' ∈ rows)
    (hx : ¬r.Apart r') : r = r' := by
  by_contra hne
  exact hx (h.forall hr hr' hne)

/-- Rows of one user and order exclude each other. -/
theorem not_apart_of_order {r r' : GoldUpgradeReservation} {u o : Uuid} (hu : r.userId = u)
    (hu' : r'.userId = u) (ho : r.orderId = some o) (ho' : r'.orderId = some o) : ¬r.Apart r' :=
  fun h => ((apart_iff.1 h) (hu.trans hu'.symm)).1 (by rw [ho]; rfl) (ho.trans ho'.symm)

/-- Unreleased rows of one user and month exclude each other. -/
theorem not_apart_of_month {r r' : GoldUpgradeReservation} {u : Uuid} {m : MonthKey} (hu : r.userId = u)
    (hu' : r'.userId = u) (hm : r.month = m) (hm' : r'.month = m) (hopen : r.releasedAt = none)
    (hopen' : r'.releasedAt = none) : ¬r.Apart r' :=
  fun h => ((apart_iff.1 h) (hu.trans hu'.symm)).2 (hm.trans hm'.symm) hopen hopen'

/-- Rows that all exclude each other are one at most. -/
theorem apart_le_one {rows : List GoldUpgradeReservation}
    (h : rows.Pairwise GoldUpgradeReservation.Apart)
    (hx : ∀ r ∈ rows, ∀ r' ∈ rows, ¬r.Apart r') : rows.length ≤ 1 := by
  match rows, h with
  | [], _ => exact Nat.zero_le 1
  | [_], _ => exact le_refl 1
  | r :: r' :: _, .cons hhead _ => exact (hx r (by simp) r' (by simp) (hhead r' (by simp))).elim

/-- Reservations and mirrors in order. -/
structure Reserved (db : DB) : Prop where
  apart : db.goldUpgradeReservations.Pairwise GoldUpgradeReservation.Apart
  profiled : ∀ r ∈ db.goldUpgradeReservations, (db.profiles r.userId).isSome = true
  held : ∀ u m, db.mirrorOf u = some m → db.occupied u m ≠ []

/-! ### What a call does to them -/

/-- Cleared by a reset of an earlier month, or as it was. -/
def MirrorStill (now : Instant) (before after : Option MonthKey) : Prop :=
  after = before ∨ after = none ∧ before.any (·.before (getUtcMonthKey now)) = true

/-- What a committed call does to reservations and mirrors. -/
inductive GoldStep (now : Instant) (db : DB) : Call → DB → Prop
  | still {c : Call} {db' : DB} (hr : db'.goldUpgradeReservations = db.goldUpgradeReservations)
      (hm : ∀ u, MirrorStill now (db.mirrorOf u) (db'.mirrorOf u)) : GoldStep now db c db'
  | reserved {userId orderId : UuidText} {p : LoyaltyProfile} (hp : db.profiles userId.value = some p)
      (hnew : db.ordered userId.value orderId.value = [])
      (hfree : db.occupied userId.value (getUtcMonthKey now) = []) :
      GoldStep now db (.useGoldUpgrade userId orderId) (db.reserved userId orderId p now)
  | rolledBack {userId orderId : UuidText} {p : LoyaltyProfile} {r : GoldUpgradeReservation}
      (hp : db.profiles userId.value = some p)
      (hr : (db.ordered userId.value orderId.value).head? = some r) (hopen : r.releasedAt = none) :
      GoldStep now db (.rollbackGoldUpgrade userId orderId) (db.rolledBack userId orderId p r now)

section step
variable {db db' : DB} {now : Instant}

/-- Only the gold calls write the mirror. -/
theorem version_mirror {c : Call} {u : Uuid} {p q : LoyaltyProfile} (h : Version now p c u q)
    (huse : ∀ userId orderId, c ≠ .useGoldUpgrade userId orderId)
    (hroll : ∀ userId orderId, c ≠ .rollbackGoldUpgrade userId orderId) :
    MirrorStill now p.goldUpgradeUsedMonth q.goldUpgradeUsedMonth := by
  cases h with
  | reserved userId orderId _ => exact absurd rfl (huse userId orderId)
  | rolledBack userId orderId => exact absurd rfl (hroll userId orderId)
  | goldReset _ hm => exact .inr ⟨rfl, hm⟩
  | purchased msg n t =>
    refine .inl ?_
    unfold LoyaltyProfile.purchase
    simp only
    split <;> rfl
  | adjusted _ =>
    refine .inl ?_
    unfold LoyaltyProfile.adjust
    simp only
    split <;> rfl
  | _ => exact .inl rfl

theorem effect_gold {c : Call} (h : Effect now db c db') : GoldStep now db c db' := by
  have still {c : Call} {x : DB} (h : Effect now db c x)
      (hr : x.goldUpgradeReservations = db.goldUpgradeReservations)
      (huse : ∀ userId orderId, c ≠ .useGoldUpgrade userId orderId)
      (hroll : ∀ userId orderId, c ≠ .rollbackGoldUpgrade userId orderId) : GoldStep now db c x :=
    .still hr fun u => version_mirror (effect_version h u) huse hroll
  cases h with
  | still _ => exact .still rfl fun _ => .inl rfl
  | reserved hp hnew _ hfree _ => exact .reserved hp hnew hfree
  | rolledBack hp hr hopen => exact .rolledBack hp hr hopen
  | deducted h₁ h₂ h₃ => exact still (.deducted h₁ h₂ h₃) (by simp [DB.deducted]) (by simp) (by simp)
  | refunded h₁ h₂ h₃ => exact still (.refunded h₁ h₂ h₃) (by simp [DB.refunded]) (by simp) (by simp)
  | purchaseSeen h₁ h₂ => exact still (.purchaseSeen h₁ h₂) (by simp) (by simp) (by simp)
  | @purchased msg n rows h₁ h₂ h₃ =>
    refine still (.purchased h₁ h₂ h₃) ?_ (by simp) (by simp)
    by_cases hn : n > 0 <;> simp [DB.purchased, DB.credited, hn, DB.post]
  | birthdaySet h =>
    refine still (.birthdaySet h) ?_ (by simp) (by simp)
    cases h <;> simp [DB.birthdaySet, DB.birthdayGranted]
  | birthdayGranted h =>
    refine still (.birthdayGranted h) ?_ (by simp) (by simp)
    cases h <;> simp [DB.birthdayGranted]
  | adjusted => exact still .adjusted (by simp [DB.adjusted, DB.post]) (by simp) (by simp)
  | vipGranted => exact still .vipGranted (by simp [DB.vipGranted, DB.post]) (by simp) (by simp)
  | progressed h =>
    refine still (.progressed h) ?_ (by simp) (by simp)
    cases h <;> simp [DB.marked, DB.unlocked, DB.rewarded, DB.post]
  | expired h => exact still (.expired h) (by simp [DB.post]) (by simp) (by simp)
  | annualReset h => exact still (.annualReset h) (by simp) (by simp) (by simp)
  | goldReset h₁ h₂ => exact still (.goldReset h₁ h₂) (by simp) (by simp) (by simp)

/-! ### Reservations stay in order -/

theorem mem_occupied {u : Uuid} {m : MonthKey} {r : GoldUpgradeReservation} :
    r ∈ db.occupied u m ↔
      r ∈ db.goldUpgradeReservations ∧ r.userId = u ∧ r.month = m ∧ r.releasedAt = none := by
  simp [DB.occupied, DB.reservationsOf, List.mem_filter]
  tauto

theorem mem_ordered {u o : Uuid} {r : GoldUpgradeReservation} :
    r ∈ db.ordered u o ↔ r ∈ db.goldUpgradeReservations ∧ r.userId = u ∧ r.orderId = some o := by
  simp [DB.ordered, DB.reservationsOf, List.mem_filter]
  tauto

theorem reserved_still (h : Reserved db) (hr : db'.goldUpgradeReservations = db.goldUpgradeReservations)
    (hpersist : ∀ u, (db.profiles u).isSome = true → (db'.profiles u).isSome = true)
    (hm : ∀ u, db'.mirrorOf u = db.mirrorOf u ∨ db'.mirrorOf u = none) : Reserved db' := by
  refine ⟨by rw [hr]; exact h.apart, fun r hmem => ?_, fun u m hmirror => ?_⟩
  · rw [hr] at hmem
    exact hpersist _ (h.profiled r hmem)
  · unfold DB.occupied DB.reservationsOf
    rw [hr]
    rcases hm u with heq | hnone
    · exact h.held u m (heq ▸ hmirror)
    · rw [hnone] at hmirror; cases hmirror

section use
variable {userId orderId : UuidText} {p : LoyaltyProfile}

@[simp] theorem reserved_reservations : (db.reserved userId orderId p now).goldUpgradeReservations =
    db.goldUpgradeReservations ++ [reservationRow userId orderId now] := by
  simp [DB.reserved, DB.apply]

theorem reserved_mirrorOf (hp : db.profiles userId.value = some p) (u : Uuid) :
    (db.reserved userId orderId p now).mirrorOf u =
      if u = userId.value then some (getUtcMonthKey now) else db.mirrorOf u := by
  have hprofile : (db.reserved userId orderId p now).profileOrDefault u =
      if u = userId.value then { p with goldUpgradeUsedMonth := some (getUtcMonthKey now) }
      else db.profileOrDefault u :=
    profileOrDefault_version (x := db.apply (.reservation (reservationRow userId orderId now)))
      (fun _ => by simp) (by simpa using hp) rfl
  unfold DB.mirrorOf
  rw [hprofile]
  split <;> rfl

theorem reserved_use (h : Reserved db) (hp : db.profiles userId.value = some p)
    (hnew : db.ordered userId.value orderId.value = [])
    (hfree : db.occupied userId.value (getUtcMonthKey now) = []) :
    Reserved (db.reserved userId orderId p now) := by
  refine ⟨?_, fun r hr => ?_, fun u m hm => ?_⟩
  · rw [reserved_reservations, List.pairwise_append]
    refine ⟨h.apart, List.pairwise_singleton .., fun r hr r' hr' => ?_⟩
    rw [List.mem_singleton.1 hr', apart_iff]
    refine fun hu => ⟨fun _ ho => ?_, fun hmonth hopen => ?_⟩
    · exact List.not_mem_nil (hnew ▸ mem_ordered.2 ⟨hr, hu, ho⟩)
    · exact (List.not_mem_nil (hfree ▸ mem_occupied.2 ⟨hr, hu, hmonth, hopen⟩)).elim
  · rw [reserved_reservations, List.mem_append, List.mem_singleton] at hr
    have hprofiled : (db.profiles r.userId).isSome = true := by
      rcases hr with hr | rfl
      · exact h.profiled r hr
      · exact Option.isSome_of_eq_some hp
    simp only [DB.reserved, profiles_updateProfile]
    split
    · simp [hp]
    · simpa using hprofiled
  · intro hempty
    have hmem : ∀ r, r ∉ (db.reserved userId orderId p now).occupied u m := by simp [hempty]
    rw [reserved_mirrorOf hp] at hm
    split at hm
    · rename_i hu
      refine hmem (reservationRow userId orderId now) (mem_occupied.2 ⟨by simp, hu.symm, ?_, rfl⟩)
      exact Option.some.inj hm
    · obtain ⟨r, hr⟩ := List.exists_mem_of_ne_nil _ (h.held u m hm)
      obtain ⟨hrow, hrest⟩ := mem_occupied.1 hr
      exact hmem r (mem_occupied.2 ⟨by simp [hrow], hrest⟩)

end use

section rollback
variable {userId orderId : UuidText} {p : LoyaltyProfile} {r : GoldUpgradeReservation}

@[simp] theorem rolledBack_reservations :
    (db.rolledBack userId orderId p r now).goldUpgradeReservations =
      db.goldUpgradeReservations.map (.release userId.value orderId.value now) := by
  unfold DB.rolledBack
  simp only
  split <;> simp [DB.apply]

theorem rolledBack_mirrorOf (hp : db.profiles userId.value = some p) (u : Uuid) :
    (db.rolledBack userId orderId p r now).mirrorOf u =
      if u = userId.value ∧ db.mirrorOf u = some r.month then none else db.mirrorOf u := by
  have hold : db.mirrorOf userId.value = p.goldUpgradeUsedMonth := by
    unfold DB.mirrorOf; rw [profileOrDefault_of hp]
  by_cases hclear : p.goldUpgradeUsedMonth = some r.month
  · have hprofile : (db.rolledBack userId orderId p r now).profileOrDefault u =
        if u = userId.value then { p with goldUpgradeUsedMonth := none }
        else db.profileOrDefault u :=
      profileOrDefault_version (x := db.apply (.release userId.value orderId.value now))
        (fun _ => by simp) (by simpa using hp)
        (by unfold DB.rolledBack; simp only [hclear, if_true])
    unfold DB.mirrorOf at hold ⊢
    rw [hprofile]
    by_cases hu : u = userId.value
    · rw [if_pos hu, hu, hold, if_pos ⟨rfl, hclear⟩]
    · rw [if_neg hu, if_neg (fun h => hu h.1)]
  · rw [if_neg (by rintro ⟨rfl, h⟩; exact hclear (hold ▸ h))]
    unfold DB.mirrorOf DB.rolledBack
    simp only [hclear, if_false]
    simp

/-- A released row keeps its user, month and order. -/
theorem release_row (u o : Uuid) (stamp : Instant) (r : GoldUpgradeReservation) :
    (r.release u o stamp).userId = r.userId ∧ (r.release u o stamp).month = r.month ∧
      (r.release u o stamp).orderId = r.orderId ∧
      (r.releasedAt.isSome = true → (r.release u o stamp).releasedAt.isSome = true) := by
  unfold GoldUpgradeReservation.release
  split <;> simp

theorem release_apart {u o : Uuid} {stamp : Instant} {r r' : GoldUpgradeReservation} (h : r.Apart r') :
    (r.release u o stamp).Apart (r'.release u o stamp) := by
  obtain ⟨hu, hm, ho, hclosed⟩ := release_row u o stamp r
  obtain ⟨hu', hm', ho', hclosed'⟩ := release_row u o stamp r'
  rw [apart_iff] at h ⊢
  rw [hu, hu', hm, hm', ho, ho']
  refine fun heq => ⟨(h heq).1, fun hmonth hopen => ?_⟩
  have hopen₀ : r.releasedAt = none := by
    by_contra hne
    have := hclosed (Option.isSome_iff_ne_none.2 hne)
    rw [hopen] at this
    cases this
  exact Option.isSome_iff_ne_none.1 (hclosed' (Option.isSome_iff_ne_none.2 ((h heq).2 hmonth hopen₀)))

/-- A rollback leaves the rows of other users and orders alone. -/
theorem release_aside {u o : Uuid} {stamp : Instant} {x : GoldUpgradeReservation}
    (h : ¬(x.userId = u ∧ x.orderId = some o)) : x.release u o stamp = x := by
  unfold GoldUpgradeReservation.release
  rw [if_neg h]

theorem reserved_rollback (h : Reserved db) (hp : db.profiles userId.value = some p)
    (hr : (db.ordered userId.value orderId.value).head? = some r) :
    Reserved (db.rolledBack userId orderId p r now) := by
  obtain ⟨hrow, hu, ho⟩ := mem_ordered.1 (List.mem_of_head? hr)
  have hprofiled : ∀ v, (db.profiles v).isSome = true →
      ((db.rolledBack userId orderId p r now).profiles v).isSome = true := by
    intro v hv
    unfold DB.rolledBack
    simp only
    split
    · simp only [profiles_updateProfile]
      split
      · rename_i hvu
        rw [Option.isSome_map]
        simpa [← hvu] using hv
      · simpa using hv
    · simpa using hv
  refine ⟨?_, fun x hx => ?_, fun v m hm => ?_⟩
  · rw [rolledBack_reservations]
    exact h.apart.map _ fun _ _ => release_apart
  · rw [rolledBack_reservations] at hx
    obtain ⟨y, hy, rfl⟩ := List.mem_map.1 hx
    rw [release_userId]
    exact hprofiled _ (h.profiled y hy)
  · rw [rolledBack_mirrorOf hp] at hm
    split at hm
    · cases hm
    · rename_i hkept
      obtain ⟨x, hx⟩ := List.exists_mem_of_ne_nil _ (h.held v m hm)
      obtain ⟨hxrow, hxu, hxm, hxopen⟩ := mem_occupied.1 hx
      -- the holder of the mirror's month is not the row released, or the mirror would be cleared
      have haside : ¬(x.userId = userId.value ∧ x.orderId = some orderId.value) := by
        rintro ⟨hxu', hxo⟩
        have heq : x = r := apart_unique h.apart hxrow hrow (not_apart_of_order hxu' hu hxo ho)
        exact hkept ⟨hxu.symm.trans hxu', by rw [hm, ← hxm, heq]⟩
      refine List.ne_nil_of_mem (a := x) (mem_occupied.2 ⟨?_, hxu, hxm, hxopen⟩)
      rw [rolledBack_reservations]
      exact List.mem_map.2 ⟨x, hxrow, release_aside haside⟩

end rollback

theorem reserved_gold {c : Call} (h : Reserved db) (hs : GoldStep now db c db')
    (hpersist : ∀ u, (db.profiles u).isSome = true → (db'.profiles u).isSome = true) :
    Reserved db' := by
  cases hs with
  | still hr hm => exact reserved_still h hr hpersist fun u => (hm u).imp id And.left
  | reserved hp hnew hfree => exact reserved_use h hp hnew hfree
  | rolledBack hp hr _ => exact reserved_rollback h hp hr

/-! ### Rows stay -/

/-- The row later on: nothing but a release has happened to it. -/
structure GoldUpgradeReservation.Later (r r' : GoldUpgradeReservation) : Prop where
  user : r'.userId = r.userId
  month : r'.month = r.month
  order : r'.orderId = r.orderId
  closed : r.releasedAt.isSome = true → r'.releasedAt.isSome = true

theorem GoldUpgradeReservation.Later.trans {r r' r'' : GoldUpgradeReservation} (h : r.Later r')
    (h' : r'.Later r'') : r.Later r'' where
  user := h'.user.trans h.user
  month := h'.month.trans h.month
  order := h'.order.trans h.order
  closed hr := h'.closed (h.closed hr)

/-- Each row stands where it stood. -/
def RowsLater (rows rows' : List GoldUpgradeReservation) : Prop :=
  ∀ (i : ℕ) (r : GoldUpgradeReservation), rows[i]? = some r → ∃ r', rows'[i]? = some r' ∧ r.Later r'

theorem rowsLater_refl (rows : List GoldUpgradeReservation) : RowsLater rows rows :=
  fun _ r hr => ⟨r, hr, rfl, rfl, rfl, id⟩

theorem RowsLater.trans {rows rows' rows'' : List GoldUpgradeReservation} (h : RowsLater rows rows')
    (h' : RowsLater rows' rows'') : RowsLater rows rows'' := by
  intro i r hr
  obtain ⟨r', hr', hlater⟩ := h i r hr
  obtain ⟨r'', hr'', hlater'⟩ := h' i r' hr'
  exact ⟨r'', hr'', hlater.trans hlater'⟩

theorem rowsLater_gold {c : Call} (hs : GoldStep now db c db') :
    RowsLater db.goldUpgradeReservations db'.goldUpgradeReservations := by
  cases hs with
  | still hr _ => rw [hr]; exact rowsLater_refl _
  | reserved _ _ _ =>
    rw [reserved_reservations]
    intro i r hr
    obtain ⟨hi, -⟩ := List.getElem?_eq_some_iff.1 hr
    exact ⟨r, by rw [List.getElem?_append_left hi, hr], rfl, rfl, rfl, id⟩
  | @rolledBack userId orderId p _ _ _ _ =>
    rw [rolledBack_reservations]
    intro i r hr
    obtain ⟨hu, hm, ho, hclosed⟩ := release_row userId.value orderId.value now r
    exact ⟨_, by rw [List.getElem?_map, hr]; rfl, hu, hm, ho, hclosed⟩

end step

/-! ### Over runs -/

/-- The migrated rows and mirrors are in order. -/
theorem reserved_migrated {db : DB} (h : Migrated db) : Reserved db := by
  have hrow : ∀ r ∈ db.goldUpgradeReservations, ∀ r' ∈ db.goldUpgradeReservations,
      r.userId = r'.userId → r = r' := by
    intro r hr r' hr' hu
    obtain ⟨ho, hopen, -, hm⟩ := h.legacy r hr
    obtain ⟨ho', hopen', -, hm'⟩ := h.legacy r' hr'
    rw [hu] at hm
    cases r; cases r'
    simp_all
  refine ⟨?_, fun r hr => (h.legacy r hr).2.2.1, fun u m hm => ?_⟩
  · refine h.once.imp_of_mem fun {r r'} hr hr' hne => apart_iff.2 fun hu => ?_
    exact absurd (hrow r hr r' hr' hu) hne
  · exact List.ne_nil_of_mem (mem_occupied.2 ⟨h.backed u m hm, rfl, rfl, rfl⟩)

section run
variable {db : DB}

theorem withTier_reservations (u : Uuid) (tier : Tier) :
    (db.withTier u tier).goldUpgradeReservations = db.goldUpgradeReservations := by
  simp [DB.withTier]

theorem withTier_profiles (u : Uuid) (tier : Tier) (v : Uuid) :
    ((db.withTier u tier).profiles v).isSome = (db.profiles v).isSome := by
  unfold DB.withTier
  rw [profiles_updateProfile]
  split
  · rename_i hv
    rw [hv, Option.isSome_map]
  · rfl

theorem withTier_mirrorOf (u : Uuid) (tier : Tier) (v : Uuid) :
    (db.withTier u tier).mirrorOf v = db.mirrorOf v := by
  unfold DB.mirrorOf DB.profileOrDefault DB.withTier
  rw [profiles_updateProfile]
  split
  · rename_i hv
    subst hv
    cases hp : db.profiles v <;> simp [DB.profileOrDefault, hp]
  · rfl

/-- What one step keeps and where the rows are after it. -/
theorem reserved_step (h : Reserved db) (act : GoldAct) : Reserved (act.exec db) ∧
    RowsLater db.goldUpgradeReservations (act.exec db).goldUpgradeReservations := by
  have same : ∀ {x : DB}, x.goldUpgradeReservations = db.goldUpgradeReservations →
      (∀ u, (db.profiles u).isSome = true → (x.profiles u).isSome = true) →
      (∀ u, x.mirrorOf u = db.mirrorOf u) →
      Reserved x ∧ RowsLater db.goldUpgradeReservations x.goldUpgradeReservations :=
    fun hr hpersist hm => ⟨reserved_still h hr hpersist fun u => .inl (hm u), hr ▸ rowsLater_refl _⟩
  cases act with
  | changeTier u tier =>
    exact same (withTier_reservations u tier) (fun v hv => by rw [← withTier_profiles u tier] at hv; exact hv)
      (withTier_mirrorOf u tier)
  | operate op =>
    have hpersist : ∀ u, (db.profiles u).isSome = true → ((op.exec db).profiles u).isSome = true :=
      fun _ => profiles_persist op
    have heff := op_effect op db
    simp only [GoldAct.exec]
    generalize op.exec db = db' at heff hpersist ⊢
    cases heff with
    | call heff =>
      have hs := effect_gold heff
      exact ⟨reserved_gold h hs hpersist, rowsLater_gold hs⟩
    | ensured u => exact same (by simp) hpersist fun v => by simp [DB.mirrorOf]
    | defined _ achievements => exact same rfl hpersist fun _ => rfl

theorem reserved_run (acts : List GoldAct) {db : DB} (h : Reserved db) : Reserved (db.runGold acts) ∧
    RowsLater db.goldUpgradeReservations (db.runGold acts).goldUpgradeReservations := by
  induction acts generalizing db with
  | nil => exact ⟨h, rowsLater_refl _⟩
  | cons act acts ih =>
    obtain ⟨hstep, hrows⟩ := reserved_step h act
    obtain ⟨hrun, hrest⟩ := ih hstep
    exact ⟨hrun, hrows.trans hrest⟩

/-- An order whose reservation was released cannot reserve again. -/
theorem released_refused {userId orderId : UuidText} {r : GoldUpgradeReservation} (h : Reserved db)
    (hr : r ∈ db.ordered userId.value orderId.value) (hclosed : r.releasedAt.isSome = true)
    (now : Instant) : (Call.useGoldUpgrade userId orderId).exec now db =
      (.ok (.gold { success := false, errorMessage := ERROR_MESSAGES.GOLD_RESERVATION_RELEASED }), db) := by
  obtain ⟨hrow, hu, ho⟩ := mem_ordered.1 hr
  obtain ⟨p, hp⟩ := Option.isSome_iff_exists.1 (hu ▸ h.profiled r hrow)
  obtain ⟨x, hx⟩ := Option.isSome_iff_exists.1 (List.isSome_head?.2 (List.ne_nil_of_mem hr))
  obtain ⟨hxrow, hxu, hxo⟩ := mem_ordered.1 (List.mem_of_head? hx)
  obtain rfl := apart_unique h.apart hxrow hrow (not_apart_of_order hxu hu hxo ho)
  refine exec_ok ?_
  simp only [Call.tx, Prog.pure_eq]
  rw [run_wrap_eq, run_useGoldUpgradeTx_released hp hx hclosed]
  rfl

/-- A rollback writes no other row. -/
theorem rollback_aside (userId orderId : UuidText) (now : Instant) {i : ℕ} {r : GoldUpgradeReservation}
    (hr : db.goldUpgradeReservations[i]? = some r)
    (hother : ¬(r.userId = userId.value ∧ r.orderId = some orderId.value)) :
    ((Call.rollbackGoldUpgrade userId orderId).exec now db).2.goldUpgradeReservations[i]? = some r := by
  have hs := effect_gold (exec_effect (.rollbackGoldUpgrade userId orderId) now db)
  generalize ((Call.rollbackGoldUpgrade userId orderId).exec now db).2 = db' at hs ⊢
  cases hs with
  | still hrows _ => rw [hrows]; exact hr
  | rolledBack _ _ _ =>
    rw [rolledBack_reservations, List.getElem?_map, hr, Option.map_some, release_aside hother]

/-- A rollback adds no row. -/
theorem rollback_length (userId orderId : UuidText) (now : Instant) :
    ((Call.rollbackGoldUpgrade userId orderId).exec now db).2.goldUpgradeReservations.length =
      db.goldUpgradeReservations.length := by
  have hs := effect_gold (exec_effect (.rollbackGoldUpgrade userId orderId) now db)
  generalize ((Call.rollbackGoldUpgrade userId orderId).exec now db).2 = db' at hs ⊢
  cases hs with
  | still hrows _ => rw [hrows]
  | rolledBack _ _ _ => rw [rolledBack_reservations, List.length_map]

end run

/-- In every state reached from the migrated one, a user holds a month and an order has a row once at
    most; rows keep their user, month and order and stay released, so a released order is refused
    forever; a rollback writes no row of another user or order; and a mirror names a month that is
    held. -/
theorem gold_reservations_exclusive {start : DB} (hstart : Migrated start) (acts : List GoldAct) :
    (∀ u m, ((start.runGold acts).occupied u m).length ≤ 1) ∧
    (∀ u o, ((start.runGold acts).ordered u o).length ≤ 1) ∧
    (∀ later, RowsLater (start.runGold acts).goldUpgradeReservations
      (start.runGold (acts ++ later)).goldUpgradeReservations) ∧
    (∀ (userId orderId : UuidText), ∀ r ∈ (start.runGold acts).ordered userId.value orderId.value,
      r.releasedAt.isSome = true → ∀ later now,
        (Call.useGoldUpgrade userId orderId).exec now (start.runGold (acts ++ later)) =
          (.ok (.gold
            { success := false, errorMessage := ERROR_MESSAGES.GOLD_RESERVATION_RELEASED }),
            start.runGold (acts ++ later))) ∧
    (∀ (userId orderId : UuidText) now,
      ((Call.rollbackGoldUpgrade userId orderId).exec now
        (start.runGold acts)).2.goldUpgradeReservations.length =
          (start.runGold acts).goldUpgradeReservations.length ∧
      ∀ (i : ℕ) (r : GoldUpgradeReservation),
        (start.runGold acts).goldUpgradeReservations[i]? = some r →
        ¬(r.userId = userId.value ∧ r.orderId = some orderId.value) →
        ((Call.rollbackGoldUpgrade userId orderId).exec now
          (start.runGold acts)).2.goldUpgradeReservations[i]? = some r) ∧
    (∀ u m, (start.runGold acts).mirrorOf u = some m →
      ∃ r ∈ (start.runGold acts).goldUpgradeReservations,
        r.userId = u ∧ r.month = m ∧ r.releasedAt = none) := by
  have hreserved := (reserved_run acts (reserved_migrated hstart)).1
  have hlater : ∀ later, start.runGold (acts ++ later) = (start.runGold acts).runGold later :=
    fun later => List.foldl_append
  refine ⟨fun u m => ?month, fun u o => ?order, fun later => ?rows, ?released, fun userId orderId now =>
    ⟨rollback_length userId orderId now, fun i r => rollback_aside userId orderId now⟩,
    fun u m hm => ?mirror⟩
  case month =>
    refine apart_le_one (hreserved.apart.filter _ |>.filter _) fun r hr r' hr' => ?_
    obtain ⟨-, hu, hm, hopen⟩ := mem_occupied.1 hr
    obtain ⟨-, hu', hm', hopen'⟩ := mem_occupied.1 hr'
    exact not_apart_of_month hu hu' hm hm' hopen hopen'
  case order =>
    refine apart_le_one (hreserved.apart.filter _ |>.filter _) fun r hr r' hr' => ?_
    obtain ⟨-, hu, ho⟩ := mem_ordered.1 hr
    obtain ⟨-, hu', ho'⟩ := mem_ordered.1 hr'
    exact not_apart_of_order hu hu' ho ho'
  case rows =>
    rw [hlater]
    exact (reserved_run later hreserved).2
  case released =>
    intro userId orderId r hr hclosed later now
    rw [hlater]
    obtain ⟨hrun, hrows⟩ := reserved_run later hreserved
    obtain ⟨hrow, hu, ho⟩ := mem_ordered.1 hr
    obtain ⟨i, hi⟩ := List.mem_iff_getElem?.1 hrow
    obtain ⟨r', hi', hr'⟩ := hrows i r hi
    exact released_refused hrun
      (mem_ordered.2 ⟨List.mem_of_getElem? hi', hr'.user.trans hu, hr'.order.trans ho⟩)
      (hr'.closed hclosed) now
  case mirror =>
    obtain ⟨r, hr⟩ := List.exists_mem_of_ne_nil _ (hreserved.held u m hm)
    exact ⟨r, mem_occupied.1 hr⟩

/-- A GOLD user who had used the first month before there were reservations. -/
def legacyHold : DB :=
  { DB.empty with
    profiles := fun u =>
      if u = .nil then some { tier := .GOLD, goldUpgradeUsedMonth := some (getUtcMonthKey 0) } else none
    goldUpgradeReservations := [{ userId := .nil, month := getUtcMonthKey 0, orderId := none }] }

theorem legacyHold_migrated : Migrated legacyHold := by
  refine ⟨fun u m hm => ?_, fun r hr => ?_, by simp [legacyHold]⟩
  · unfold DB.mirrorOf DB.profileOrDefault legacyHold at hm
    by_cases hu : u = .nil
    · subst hu
      obtain rfl := Option.some.inj hm
      exact List.mem_singleton_self _
    · simp [hu] at hm
  · rw [List.mem_singleton.1 hr]
    exact ⟨rfl, rfl, rfl, rfl⟩

/-- The month after is another month. -/
theorem gold_reservations_exclusive_legacy :
    ((legacyHold.runGold [.operate (.call (.useGoldUpgrade ⟨Uuid.nil.text, .nil, by decide⟩
      ⟨Uuid.nil.text, .nil, by decide⟩) 2678400000)]).ordered .nil .nil).length ≤ 1 :=
  (gold_reservations_exclusive legacyHold_migrated _).2.1 .nil .nil

end CinemaLoyalty
