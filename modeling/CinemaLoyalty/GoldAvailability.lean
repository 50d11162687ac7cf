import Mathlib.Order.Defs.PartialOrder
import CinemaLoyalty.GoldReservations
import CinemaLoyalty.Profile

/-! @svc GoldAvailability | layer:property | source:src/loyalty/loyalty.service.ts (isGoldUpgradeAvailable, useGoldUpgrade, rollbackGoldUpgrade), src/loyalty/loyalty-expiration.service.ts (goldReset)

    The preview of the Gold upgrade reads the tier and the mirror; the command reads the reservations
    too. They agree as long as months pass in order: whoever holds the month the calls have come to
    is named by the mirror (`Mirrored`), though holders of earlier months need not be. -/

namespace CinemaLoyalty
open Txn

/-- Months in their order. -/
instance : PartialOrder MonthKey where
  le m m' := m'.before m = false
  le_refl m := by simp [MonthKey.before]
  le_trans m m' m'' h h' := by
    simp only [MonthKey.before, Bool.or_eq_false_iff, Bool.and_eq_false_iff, decide_eq_false_iff_not] at *
    omega
  le_antisymm m m' h h' := by
    obtain ⟨y, n⟩ := m
    obtain ⟨y', n'⟩ := m'
    simp only [MonthKey.before, Bool.or_eq_false_iff, Bool.and_eq_false_iff, decide_eq_false_iff_not,
      MonthKey.mk.injEq] at *
    omega

instance (m m' : MonthKey) : Decidable (m ≤ m') := inferInstanceAs (Decidable (m'.before m = false))

/-- The month a step sees. -/
def GoldAct.month : GoldAct → Option MonthKey
  | .operate (.call _ now) => some (getUtcMonthKey now)
  | _ => none

/-- The months of a run and of the reading after it. -/
def monthsSeen (acts : List GoldAct) (now : Instant) : List MonthKey :=
  acts.filterMap GoldAct.month ++ [getUtcMonthKey now]

/-- Every counter on every profile fits its column. -/
def Fits (db : DB) : Prop := ∀ u p, db.profiles u = some p → p.inRange = true

/-- Reservations and mirrors in order when the calls have come to the month `m`. -/
structure Mirrored (m : MonthKey) (db : DB) : Prop where
  reserved : Reserved db
  fits : Fits db
  past : ∀ r ∈ db.goldUpgradeReservations, r.releasedAt = none → r.month ≤ m
  mirrored : ∀ r ∈ db.goldUpgradeReservations, r.releasedAt = none → r.month = m →
    db.mirrorOf r.userId = some m

/-! ### Counters fit -/

section fits
variable {db : DB}

/-- The version of a profile in a row version, if it is one. -/
def Write.Fits : Write → Prop
  | .updateProfile _ row => row.inRange = true
  | _ => True

theorem eval_fits {β : Type} {s : Stmt β} {b : β} {ws : List Write} (h : db.eval s = .ok (b, ws)) :
    ∀ w ∈ ws, w.Fits := by
  cases s with
  | createManyIntents u rows =>
    intro w hw
    obtain ⟨_, _, _, rfl⟩ := createManyIntents_writes h w hw
    trivial
  | _ =>
    simp only [DB.eval] at h
    all_goals (repeat' split at h) <;> cases h <;> simp_all [Write.Fits]

theorem apply_fits {w : Write} (hw : w.Fits) (h : Fits db) : Fits (db.apply w) := by
  intro u p hp
  cases w with
  | insertProfile v =>
    rw [profiles_insertProfile] at hp
    split at hp
    · rename_i heq
      subst heq
      cases hv : db.profiles u with
      | none =>
        rw [hv] at hp
        cases hp
        decide
      | some q =>
        rw [hv] at hp
        cases hp
        exact h u _ hv
    · exact h u p hp
  | updateProfile v row =>
    rw [profiles_updateProfile] at hp
    split at hp
    · obtain ⟨_, -, rfl⟩ := Option.map_eq_some_iff.1 hp
      exact hw
    · exact h u p hp
  | _ => exact h u p hp

theorem view_fits {ws : List Write} (hws : ∀ w ∈ ws, w.Fits) (h : Fits db) : Fits (pg.view db ws) := by
  induction ws generalizing db with
  | nil => exact h
  | cons w ws ih =>
    rw [pg.view_cons]
    exact ih (fun x hx => hws x (List.mem_cons_of_mem w hx)) (apply_fits (hws w List.mem_cons_self) h)

theorem op_fits (op : Op) (h : Fits db) : Fits (op.exec db) := by
  refine op_stmts_keep (I := Fits) (fun _ _ _ _ hI he => view_fits (eval_fits he) hI) (fun {x} u hI => ?_)
    (fun _ hI => hI) op h
  unfold DB.ensureProfile
  split
  · exact hI
  · exact apply_fits (w := .insertProfile u) trivial hI

theorem withTier_fits (u : Uuid) (tier : Tier) (h : Fits db) : Fits (db.withTier u tier) := by
  intro v p hp
  unfold DB.withTier at hp
  rw [profiles_updateProfile] at hp
  split at hp
  · obtain ⟨q, hq, rfl⟩ := Option.map_eq_some_iff.1 hp
    rename_i hv
    rw [profileOrDefault_of hq]
    exact h _ q hq
  · exact h v p hp

end fits

/-! ### The mirror names the holder of the month -/

section mirror
variable {db db' : DB} {m : MonthKey}

/-- A later month has come, which nobody holds yet. -/
theorem Mirrored.advance {m' : MonthKey} (h : Mirrored m db) (hm : m ≤ m') : Mirrored m' db where
  reserved := h.reserved
  fits := h.fits
  past r hr hopen := (h.past r hr hopen).trans hm
  mirrored r hr hopen heq := by
    obtain rfl : m = m' := le_antisymm hm (heq ▸ h.past r hr hopen)
    exact h.mirrored r hr hopen heq

theorem mirrored_same (h : Mirrored m db) (hreserved : Reserved db') (hfits : Fits db')
    (hr : db'.goldUpgradeReservations = db.goldUpgradeReservations)
    (hm : ∀ u, db.mirrorOf u = some m → db'.mirrorOf u = some m) : Mirrored m db' where
  reserved := hreserved
  fits := hfits
  past := by rw [hr]; exact h.past
  mirrored r hmem hopen heq := by
    rw [hr] at hmem
    exact hm _ (h.mirrored r hmem hopen heq)

/-- A call in the month `m`. -/
theorem mirrored_gold {c : Call} {now : Instant} (h : Mirrored (getUtcMonthKey now) db)
    (hs : GoldStep now db c db') (hreserved : Reserved db') (hfits : Fits db') :
    Mirrored (getUtcMonthKey now) db' := by
  cases hs with
  | still hr hm =>
    refine mirrored_same h hreserved hfits hr fun u hu => ?_
    rcases hm u with heq | ⟨-, hbefore⟩
    · rw [heq, hu]
    · rw [hu, Option.any_some] at hbefore
      exact absurd hbefore (by rw [show _ = false from le_refl (getUtcMonthKey now)]; decide)
  | @reserved userId orderId p hp hnew hfree =>
    refine ⟨hreserved, hfits, fun r hr hopen => ?_, fun r hr hopen heq => ?_⟩ <;>
      rw [reserved_reservations, List.mem_append, List.mem_singleton] at hr
    · rcases hr with hr | rfl
      · exact h.past r hr hopen
      · exact le_refl _
    · rw [reserved_mirrorOf hp]
      split
      · rfl
      · rename_i hother
        refine h.mirrored r (hr.resolve_right ?_) hopen heq
        rintro rfl
        exact hother rfl
  | @rolledBack userId orderId p r hp hr hropen =>
    obtain ⟨hrow, hu, ho⟩ := mem_ordered.1 (List.mem_of_head? hr)
    -- what is unreleased afterwards is a row that the rollback left alone
    have hkept : ∀ x ∈ (db.rolledBack userId orderId p r now).goldUpgradeReservations,
        x.releasedAt = none → x ∈ db.goldUpgradeReservations ∧
          ¬(x.userId = userId.value ∧ x.orderId = some orderId.value) := by
      intro x hx hopen
      rw [rolledBack_reservations] at hx
      obtain ⟨y, hy, rfl⟩ := List.mem_map.1 hx
      unfold GoldUpgradeReservation.release at hopen ⊢
      split at hopen
      · cases hopen
      · rename_i hother
        rw [if_neg hother]
        exact ⟨hy, hother⟩
    refine ⟨hreserved, hfits, fun x hx hopen => h.past x (hkept x hx hopen).1 hopen,
      fun x hx hopen heq => ?_⟩
    obtain ⟨hx, hother⟩ := hkept x hx hopen
    rw [rolledBack_mirrorOf hp, h.mirrored x hx hopen heq]
    refine if_neg fun hcleared => ?_
    -- the row released would hold the same month as `x`
    have hmonth : r.month = getUtcMonthKey now := (Option.some.inj hcleared.2).symm
    obtain rfl := apart_unique h.reserved.apart hx hrow
      (not_apart_of_month hcleared.1 hu heq hmonth hopen hropen)
    exact hother ⟨hu, ho⟩

/-- A step without a clock reading leaves the mirror alone. -/
theorem mirrored_other {act : GoldAct} (h : Mirrored m db) (hact : act.month = none) :
    Mirrored m (act.exec db) := by
  have hreserved := (reserved_step h.reserved act).1
  cases act with
  | changeTier u tier =>
    exact mirrored_same h hreserved (withTier_fits u tier h.fits) (withTier_reservations u tier)
      fun v hv => (withTier_mirrorOf u tier v).trans hv
  | operate op =>
    have hfits := op_fits op h.fits
    have heff := op_effect op db
    simp only [GoldAct.exec] at hreserved ⊢
    generalize op.exec db = db' at heff hreserved hfits ⊢
    cases heff with
    | call _ => cases hact
    | ensured u =>
      exact mirrored_same h hreserved hfits (by simp) fun v hv => by
        simpa [DB.mirrorOf] using hv
    | defined _ achievements => exact mirrored_same h hreserved hfits rfl fun _ hv => hv

/-- A run whose months never go backwards comes to the month of the reading after it. -/
theorem mirrored_run (now : Instant) (acts : List GoldAct) {m : MonthKey} {db : DB}
    (h : Mirrored m db) (hmonths : (m :: monthsSeen acts now).Pairwise (· ≤ ·)) :
    Mirrored (getUtcMonthKey now) (db.runGold acts) := by
  induction acts generalizing m db with
  | nil => exact h.advance (by simpa [monthsSeen] using hmonths)
  | cons act acts ih =>
    cases hact : act.month with
    | none =>
      have hseen : monthsSeen (act :: acts) now = monthsSeen acts now := by simp [monthsSeen, hact]
      exact ih (mirrored_other h hact) (hseen ▸ hmonths)
    | some m' =>
      have hseen : monthsSeen (act :: acts) now = m' :: monthsSeen acts now := by
        simp [monthsSeen, hact]
      rw [hseen, List.pairwise_cons] at hmonths
      refine ih ?_ hmonths.2
      have hcome := h.advance (hmonths.1 m' List.mem_cons_self)
      match act, hact with
      | .operate (.call c stamp), rfl =>
        exact mirrored_gold hcome (effect_gold (exec_effect c stamp db))
          (reserved_step h.reserved (.operate (.call c stamp))).1 (op_fits (.call c stamp) h.fits)

theorem mirrored_migrated (hstart : Migrated db) (hfits : Fits db)
    (hm : ∀ u m', db.mirrorOf u = some m' → m' ≤ m) : Mirrored m db where
  reserved := reserved_migrated hstart
  fits := hfits
  past r hr _ := hm _ _ (hstart.legacy r hr).2.2.2
  mirrored r hr _ heq := heq ▸ (hstart.legacy r hr).2.2.2

/-- The preview and the command agree on an order without a row, the profile being there. -/
theorem available_iff {now now' : Instant} (h : Mirrored (getUtcMonthKey now) db)
    (hsame : getUtcMonthKey now' = getUtcMonthKey now) {userId orderId : UuidText} {p : LoyaltyProfile}
    (hp : db.profiles userId.value = some p) (hnew : db.ordered userId.value orderId.value = []) :
    isGoldUpgradeAvailable p.tier p.goldUpgradeUsedMonth now = true ↔
      ((Call.useGoldUpgrade userId orderId).exec now' db).1 = .ok (.gold { success := true }) := by
  have hmirror : db.mirrorOf userId.value = p.goldUpgradeUsedMonth := by
    unfold DB.mirrorOf
    rw [profileOrDefault_of hp]
  rw [isGoldUpgradeAvailable_iff, ← hsame]
  constructor
  · rintro ⟨hgold, hunused⟩
    have hfree : db.occupied userId.value (getUtcMonthKey now') = [] := by
      refine List.eq_nil_iff_forall_not_mem.2 fun r hr => ?_
      obtain ⟨hrow, hu, hm, hopen⟩ := mem_occupied.1 hr
      have hnamed := h.mirrored r hrow hopen (hm.trans hsame)
      rw [hu, hmirror, ← hsame] at hnamed
      exact hunused hnamed
    have hrun : db.run ((Call.useGoldUpgrade userId orderId).tx now') =
        .ok (.gold { success := true }, db.reserved userId orderId p now') := by
      simp only [Call.tx, Prog.pure_eq]
      rw [run_wrap_eq, run_useGoldUpgradeTx_reserved hp (h.fits _ _ hp) hnew hgold hfree hunused]
      rfl
    rw [exec_ok hrun]
  · intro hanswer
    rcases exec_cases (.useGoldUpgrade userId orderId) now' db with ⟨e, -, he⟩ | ⟨a, x, hr, he⟩
    · rw [he] at hanswer
      cases e <;> cases hanswer
    · rw [he] at hanswer
      obtain rfl := Except.ok.inj hanswer
      obtain ⟨res, hr, hres⟩ := run_wrap hr
      obtain rfl := Answer.gold.inj hres
      cases useGoldUpgradeTx_use hr with
      | replayed hfound _ => rw [hnew] at hfound; cases hfound
      | reserved hp' _ hgold _ hunused =>
        obtain rfl := Option.some.inj (hp.symm.trans hp')
        exact ⟨hgold, hunused⟩

end mirror

/-- In every state reached from the migrated one by calls that never see the UTC month go backwards,
    the flag that `getFullProfile` returns says whether `useGoldUpgrade` for a new order, next in that
    month, succeeds. -/
theorem gold_flag_predicts_use {start : DB} (hstart : Migrated start) (hfits : Fits start)
    (acts : List GoldAct) (now : Instant) (hmonths : (monthsSeen acts now).Pairwise (· ≤ ·))
    (hmirrors : ∀ u m, start.mirrorOf u = some m → ∀ m' ∈ monthsSeen acts now, m ≤ m')
    (userId orderId : UuidText)
    (hnew : (start.runGold acts).ordered userId.value orderId.value = []) (now' : Instant)
    (hsame : getUtcMonthKey now' = getUtcMonthKey now) :
    (getFullProfile userId now (start.runGold acts)).1.goldUpgradeAvailable = true ↔
      ((Call.useGoldUpgrade userId orderId).exec now'
        (getFullProfile userId now (start.runGold acts)).2).1 = .ok (.gold { success := true }) := by
  have hreached : Mirrored (getUtcMonthKey now) (start.runGold acts) := by
    obtain ⟨m, rest, hseen⟩ : ∃ m rest, monthsSeen acts now = m :: rest :=
      List.exists_cons_of_ne_nil (by simp [monthsSeen])
    have hm : m ∈ monthsSeen acts now := by rw [hseen]; exact List.mem_cons_self
    refine mirrored_run now acts
      (mirrored_migrated hstart hfits fun u m' hu => hmirrors u m' hu m hm) ?_
    refine List.pairwise_cons.2 ⟨fun m' hm' => ?_, hmonths⟩
    rw [hseen] at hm' hmonths
    rcases List.mem_cons.1 hm' with rfl | hlater
    · exact le_refl m'
    · exact (List.pairwise_cons.1 hmonths).1 m' hlater
  -- the read leaves the database a `getBalance` leaves
  have hread : Mirrored (getUtcMonthKey now)
      (GoldAct.exec (start.runGold acts) (.operate (.getBalance userId.value))) :=
    mirrored_other hreached rfl
  refine available_iff hread hsame (ensureProfile_self userId.value) ?_
  unfold DB.ordered DB.reservationsOf at hnew ⊢
  simpa [GoldAct.exec, Op.exec] using hnew

/-- The user of the legacy row asks for an order in January, is reset in February, takes the upgrade of
    February for the order, gives it back and takes it for another. -/
def twoMonths : List GoldAct :=
  let user : UuidText := ⟨Uuid.nil.text, .nil, nilText_named⟩
  let order : UuidText := ⟨Uuid.second.text, .second, secondText_named⟩
  [.operate (.call (.useGoldUpgrade user order) 0),
    .operate (.call (.goldReset .nil) 2678400000),
    .operate (.call (.useGoldUpgrade user order) 2678400000),
    .operate (.call (.rollbackGoldUpgrade user order) 2678400000),
    .operate (.call (.useGoldUpgrade user user) 2678400000)]

/-- The flag is down for the rest of February and up on 1 March. -/
theorem gold_flag_predicts_use_months :
    let user : UuidText := ⟨Uuid.nil.text, .nil, nilText_named⟩
    let order : UuidText := ⟨Uuid.third.text, .third, thirdText_named⟩
    let later := legacyHold.runGold twoMonths
    ∀ now ∈ [2764800000, 5097600000],
      ((getFullProfile user now later).1.goldUpgradeAvailable = true ↔ now = 5097600000) ∧
      ((getFullProfile user now later).1.goldUpgradeAvailable = true ↔
        ((Call.useGoldUpgrade user order).exec now (getFullProfile user now later).2).1 =
          .ok (.gold { success := true })) := by
  have hfits : Fits legacyHold := by
    intro u p hp
    simp only [legacyHold] at hp
    split at hp
    · cases hp; decide
    · cases hp
  have hmirrors : ∀ u m, legacyHold.mirrorOf u = some m → m = getUtcMonthKey 0 := by
    intro u m hm
    unfold DB.mirrorOf DB.profileOrDefault legacyHold at hm
    by_cases hu : u = .nil
    · simp only [hu, if_true] at hm
      exact (Option.some.inj hm).symm
    · simp [hu] at hm
  have hmonths : ∀ now ∈ [2764800000, 5097600000],
      (monthsSeen twoMonths now).Pairwise (· ≤ ·) := by decide +kernel
  have hlater : ∀ now ∈ [2764800000, 5097600000],
      ∀ m ∈ monthsSeen twoMonths now, getUtcMonthKey 0 ≤ m := by decide +kernel
  have hnew : (legacyHold.runGold twoMonths).ordered .nil .third = [] := by decide +kernel
  intro user order later now hnow
  constructor
  · revert now
    decide +kernel
  · refine gold_flag_predicts_use legacyHold_migrated hfits twoMonths now (hmonths now hnow)
      (fun u m hm => ?_) user order hnew now rfl
    rw [hmirrors u m hm]
    exact hlater now hnow

end CinemaLoyalty
