import CinemaLoyalty.Transaction
import CinemaLoyalty.Lib.OwnerLocking

/-! @svc Owners | layer:system | source:src/prisma/profile-transaction.ts, prisma/schema.prisma

    The loyalty schema as an owner store: every row belongs to one user, whose profile row is the
    lock, except for the processed events, which all users share. -/

namespace CinemaLoyalty
open Txn

/-- The user a row version belongs to; processed events belong to nobody. -/
def Write.owner : Write → Option Uuid
  | .insertProfile u => some u
  | .updateProfile u _ => some u
  | .event _ => none
  | .transaction t => some t.userId
  | .debit id _ => some id.userId
  | .reservation r => some r.userId
  | .release u _ _ => some u
  | .grant u _ _ _ => some u
  | .outbox e => some e.aggregateId
  | .userAchievement u _ _ => some u
  | .intent u _ _ _ => some u

/-- The user whose rows a statement reads and writes, once the profile is locked. -/
def Stmt.owner : {β : Type} → Stmt β → Option Uuid
  | _, .createManyProfile _ => none
  | _, .lockProfile _ => none
  | _, .findProfile u => some u
  | _, .updateProfile u _ => some u
  | _, .updateManyProfile u _ _ => some u
  | _, .findEvent _ => none
  | _, .createEvent _ => none
  | _, .createManyEvent _ => none
  | _, .findTransactions u _ => some u
  | _, .createTransaction row => some row.userId
  | _, .findDebit id => some id.userId
  | _, .createDebit id => some id.userId
  | _, .linkDebit id _ => some id.userId
  | _, .findReservations u _ => some u
  | _, .createReservation row => some row.userId
  | _, .releaseReservation u _ _ => some u
  | _, .findGrant u _ _ => some u
  | _, .createGrant u _ _ _ => some u
  | _, .createOutbox row => some row.aggregateId
  | _, .findUserAchievement u _ => some u
  | _, .createUserAchievement u _ _ => some u
  | _, .updateUserAchievement u _ _ => some u
  | _, .updateManyUserAchievement u _ _ _ => some u
  | _, .createManyIntents u _ => some u

/-- Two databases with the same rows of a user. -/
structure SameRows (u : Uuid) (x y : DB) : Prop where
  profile : x.profiles u = y.profiles u
  ledger : x.ledgerOf u = y.ledgerOf u
  debits : ∀ seq, x.checkoutDebits ⟨u, seq⟩ = y.checkoutDebits ⟨u, seq⟩
  reservations : x.reservationsOf u = y.reservationsOf u
  grants : ∀ ty yr, x.userBonusGrants (u, ty, yr) = y.userBonusGrants (u, ty, yr)
  outbox : x.outboxOf u = y.outboxOf u
  progress : ∀ a, x.userAchievements (u, a) = y.userAchievements (u, a)
  intents : ∀ e ty, x.achievementDispatchIntents (u, e, ty) = y.achievementDispatchIntents (u, e, ty)

section rows
variable {u v : Uuid} {x y z db : DB} {w : Write}

theorem SameRows.rfl : SameRows u x x := ⟨Eq.refl _, Eq.refl _, fun _ => Eq.refl _, Eq.refl _,
  fun _ _ => Eq.refl _, Eq.refl _, fun _ => Eq.refl _, fun _ _ => Eq.refl _⟩

theorem SameRows.symm (h : SameRows u x y) : SameRows u y x :=
  ⟨h.profile.symm, h.ledger.symm, fun s => (h.debits s).symm, h.reservations.symm,
    fun t r => (h.grants t r).symm, h.outbox.symm, fun a => (h.progress a).symm,
    fun e t => (h.intents e t).symm⟩

theorem SameRows.trans (h : SameRows u x y) (h' : SameRows u y z) : SameRows u x z :=
  ⟨h.profile.trans h'.profile, h.ledger.trans h'.ledger, fun s => (h.debits s).trans (h'.debits s),
    h.reservations.trans h'.reservations, fun t r => (h.grants t r).trans (h'.grants t r),
    h.outbox.trans h'.outbox, fun a => (h.progress a).trans (h'.progress a),
    fun e t => (h.intents e t).trans (h'.intents e t)⟩

@[simp] theorem intents_intent (u : Uuid) (e : String) (ty : AchievementAction)
    (row : AchievementDispatchIntent) (k : Uuid × String × AchievementAction) :
    (db.apply (.intent u e ty row)).achievementDispatchIntents k =
      if k = (u, e, ty) then (db.achievementDispatchIntents (u, e, ty)).or (some row)
      else db.achievementDispatchIntents k := by
  simp [DB.apply, Function.update_apply]

/-- A row version of a user does the same to the user's rows everywhere. -/
theorem sameRows_apply (hw : w.owner = some u) (h : SameRows u x y) :
    SameRows u (x.apply w) (y.apply w) := by
  obtain ⟨h₁, h₂, h₃, h₄, h₅, h₆, h₇, h₈⟩ := h
  cases w <;> simp only [Write.owner, Option.some.injEq, reduceCtorEq] at hw <;> subst hw <;>
    constructor <;> intros <;> simp [*]

/-- Releasing a reservation of one user leaves those of another as they are. -/
theorem release_other {o : Uuid} {stamp : Instant} (h : u ≠ v) :
    (db.reservationsOf v).map (.release u o stamp) = db.reservationsOf v := by
  refine List.map_congr_left (fun r hr => ?_) |>.trans (List.map_id _)
  have hv : r.userId = v := by simpa using (List.mem_filter.1 hr).2
  unfold GoldUpgradeReservation.release
  rw [if_neg (by rw [hv]; exact fun hx => h hx.1.symm)]
  exact Eq.refl r

/-- A row version of another user, or of none, leaves the rows of a user alone. -/
theorem sameRows_other (hw : w.owner ≠ some v) : SameRows v x (x.apply w) := by
  cases w with
  | event row => constructor <;> intros <;> simp
  | debit id row =>
    have hid : ∀ seq, (⟨v, seq⟩ : RowId) ≠ id := by
      rintro seq rfl
      exact hw (Eq.refl _)
    constructor <;> intros <;> simp [hid]
  | release u o stamp =>
    have hu : u ≠ v := fun h => hw (by rw [h]; exact Eq.refl _)
    constructor <;> intros <;> simp [release_other hu]
  | _ =>
    simp only [Write.owner, ne_eq, Option.some.injEq] at hw
    constructor <;> intros <;> simp [hw, Ne.symm hw]

/-- A user's statement answers and writes the same wherever the user's rows are the same. -/
theorem eval_sameRows {β : Type} {s : Stmt β} (hs : s.owner = some u) (h : SameRows u x y) :
    x.eval s = y.eval s := by
  obtain ⟨h₁, h₂, h₃, h₄, h₅, h₆, h₇, h₈⟩ := h
  cases s with
  | findDebit id => obtain ⟨v, seq⟩ := id; cases hs; simp [DB.eval, h₃]
  | createDebit id => obtain ⟨v, seq⟩ := id; cases hs; simp [DB.eval, h₃]
  | linkDebit id rid => obtain ⟨v, seq⟩ := id; cases hs; simp [DB.eval, h₃]
  | _ =>
    simp only [Stmt.owner, Option.some.injEq, reduceCtorEq] at hs <;> subst hs <;>
      simp only [DB.eval, h₁, h₂, h₄, h₅, h₆, h₇, h₈]

/-- A user's statement writes row versions of the user. -/
theorem eval_owner {β : Type} {s : Stmt β} {b : β} {ws : List Write} (hs : s.owner = some u)
    (he : x.eval s = .ok (b, ws)) : ∀ w ∈ ws, w.owner = some u := by
  cases s with
  | createManyIntents v rows =>
    cases hs
    intro w hw
    obtain ⟨_, _, _, rfl⟩ := createManyIntents_writes he w hw
    exact Eq.refl _
  | _ =>
    simp only [Stmt.owner, Option.some.injEq, reduceCtorEq] at hs <;> subst hs <;>
      simp only [DB.eval] at he <;> (repeat' split at he) <;> cases he <;> simp [Write.owner]

/-- Only the creation of a missing profile occupies the profile's key. -/
theorem profileKey_missing {β : Type} {s : Stmt β} (h : .profileKey v ∈ pg.footprint s x) :
    (x.profiles v).isSome = false := by
  rcases List.mem_append.1 h with h | h
  · cases s <;> simp [pg, DB.locks] at h
  · split at h
    · rename_i b ws he
      obtain ⟨w, hw, hv⟩ := List.mem_flatMap.1 h
      obtain rfl : w = .insertProfile v := by cases w <;> simp_all [pg, Write.holds]
      cases s with
      | createManyProfile u =>
        cases he
        by_cases hu : (x.profiles u).isSome = true
        · simp [hu] at hw
        · simp only [hu, Bool.false_eq_true, if_false, List.mem_singleton] at hw
          cases hw
          simpa using hu
      | createManyIntents u rows =>
        have he' : x.eval (.createManyIntents u rows) = .ok (b, ws) := he
        obtain ⟨_, _, _, hr⟩ := createManyIntents_writes he' _ hw
        cases hr
      | _ =>
        simp only [pg, DB.eval] at he
        all_goals (repeat' split at he) <;> cases he <;> simp at hw
    · cases h

theorem present_apply (w : Write) (h : (x.profiles v).isSome = true) :
    ((x.apply w).profiles v).isSome = true := by
  cases w with
  | insertProfile u => by_cases hv : v = u <;> simp_all
  | updateProfile u row => by_cases hv : v = u <;> simp_all
  | _ => simpa using h

theorem present_new (h : ((x.apply w).profiles v).isSome = true) :
    (x.profiles v).isSome = true ∨ w = .insertProfile v := by
  cases w with
  | insertProfile u =>
    by_cases hv : v = u
    · exact .inr (by rw [hv])
    · left; simpa [hv] using h
  | updateProfile u row => left; by_cases hv : v = u <;> simp_all
  | _ => left; simpa using h

theorem entry_owned (hw : w.owner = some u) : (x.apply w).processedEvents = x.processedEvents := by
  cases w with
  | event row => cases hw
  | _ => simp

end rows

/-- The loyalty schema under the profile lock. -/
def loyaltyRows : OwnerStore pg Uuid String ProcessedEvent where
  agree := SameRows
  present u x := (x.profiles u).isSome
  entry k x := x.processedEvents k
  key := ProcessedEvent.eventId
  legible := isTextColumn
  fits m := m.inRange && isTextColumn m.eventId
  openS := .createManyProfile
  lockS := .lockProfile
  findS := .findEvent
  claimS := .createManyEvent
  createS := .createEvent
  openW := .insertProfile
  putW := .event
  own u _ s := s.owner = some u
  ownW u w := w.owner = some u
  rowLock := .profileRow
  openLock := .profileKey
  keyLock := .eventKey
  agree_refl _ _ := .rfl
  agree_symm := .symm
  agree_trans := .trans
  eval_open _ _ := rfl
  eval_lock _ _ := rfl
  locks_lock u x h := by simp [pg, DB.locks, h]
  eval_find _ _ hk := if_pos hk
  illegible_find _ hk := ⟨.prisma .P2039, fun _ => if_neg (by rw [hk]; exact Bool.false_ne_true)⟩
  fits_legible _ h := ((Bool.and_eq_true _ _).mp h).2
  eval_claim m x h := by
    obtain ⟨hr, hk⟩ := (Bool.and_eq_true _ _).mp h
    simp [pg, DB.eval, hr, hk]
  eval_create m x h hn := by
    obtain ⟨hr, hk⟩ := (Bool.and_eq_true _ _).mp h
    simp [pg, DB.eval, hr, hk, hn]
  misfit_claim m x h := by
    simp only [pg, DB.eval]
    rcases (Bool.and_eq_false_iff ..).mp h with hr | hk
    · exact ⟨_, if_pos (by rw [hr]; rfl)⟩
    · split
      · exact ⟨_, rfl⟩
      · exact ⟨_, if_pos (by rw [hk]; rfl)⟩
  misfit_create m x h := by
    simp only [pg, DB.eval]
    rcases (Bool.and_eq_false_iff ..).mp h with hr | hk
    · exact ⟨_, if_pos (by rw [hr]; rfl)⟩
    · split
      · exact ⟨_, rfl⟩
      · exact ⟨_, if_pos (by rw [hk]; rfl)⟩
  eval_create_taken m x h := by
    simp only [pg, DB.eval]
    split
    · exact ⟨_, rfl⟩
    split
    · exact ⟨_, rfl⟩
    · rw [if_pos (Option.isSome_iff_ne_none.2 h)]
      exact ⟨_, rfl⟩
  own_congr hs h := eval_sameRows hs h
  own_writes hs he := eval_owner hs he
  ownW_openW _ := rfl
  agree_ownW hw h := sameRows_apply hw h
  agree_other x hw hv := sameRows_other (by rw [hw]; exact fun h => hv (Option.some.inj h).symm)
  agree_putW v m x := sameRows_other (w := .event m) (by simp [Write.owner])
  present_congr h := by rw [h.profile]
  present_apply w h := CinemaLoyalty.present_apply w h
  present_new h := CinemaLoyalty.present_new h
  present_openW u x := by simp [pg]
  entry_ownW k x hw := congrFun (entry_owned hw) k
  entry_putW k m x := by
    by_cases hk : k = m.eventId
    · subst hk; simp [pg]
    · simp [pg, hk, Ne.symm hk]
  openLock_taken h := profileKey_missing h
  holds_openW _ := List.mem_singleton_self _
  holds_putW _ := List.mem_singleton_self _

end CinemaLoyalty
