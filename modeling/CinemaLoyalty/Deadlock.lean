import CinemaLoyalty.Concurrency
import CinemaLoyalty.Lib.WaitFor

/-! @svc Deadlock | layer:property | source:src/prisma/profile-transaction.ts, src/loyalty, src/achievements

    The calls never deadlock, however many run and however their statements interleave. Users meet in
    the processed events only, and a call comes to its key with its own profile locked and leaves it
    at the end of its transaction; whatever else a statement waits for belongs to the call's user. -/

namespace CinemaLoyalty
open Txn Txn.OwnerStore Relation

/-- What a row or a unique key protects. -/
def Resource.lock : Resource → Lock Uuid
  | .profileKey u => .creates u
  | .eventKey _ => .shared
  | .profileRow u | .orderKey u _ | .monthKey u _ | .grantKey u _ _ | .progressRow u _
  | .intentKey u _ _ => .owns u
  | .debitRow id => .owns id.userId

section footprints
variable {β : Type} {x : DB} {u : Uuid}

/-- A statement on a user's rows creates no profile. -/
theorem eval_creates {s : Stmt β} {b : β} {ws : List Write} (hs : s.owner = some u)
    (he : x.eval s = .ok (b, ws)) (v : Uuid) : .insertProfile v ∉ ws := by
  cases s with
  | createManyIntents v rows =>
    intro hv
    obtain ⟨_, _, _, hw⟩ := createManyIntents_writes he _ hv
    cases hw
  | _ =>
    simp only [Stmt.owner, Option.some.injEq, reduceCtorEq] at hs <;> subst hs <;>
      simp only [DB.eval] at he <;> (repeat' split at he) <;> cases he <;> simp

/-- A row version of a user, other than a new profile, occupies rows and keys of the user. -/
theorem holds_owner {w : Write} (hw : w.owner = some u) (hne : ∀ v, w ≠ .insertProfile v) :
    ∀ r ∈ w.holds, r.lock = .owns u := by
  cases w <;> simp only [Write.owner, Option.some.injEq, reduceCtorEq] at hw <;> subst hw <;>
    simp_all [Write.holds, Resource.lock]

theorem locks_owner {s : Stmt β} (hs : s.owner = some u) : x.locks s = [] := by
  cases s with
  | lockProfile v => cases hs
  | _ => rfl

theorem footprint_owner {s : Stmt β} (hs : s.owner = some u) :
    ∀ r ∈ pg.footprint s x, r.lock = .owns u := by
  intro r hr
  rcases List.mem_append.1 hr with hr | hr
  · rw [show pg.locks s x = [] from locks_owner hs] at hr
    cases hr
  · split at hr
    · rename_i b ws he
      obtain ⟨w, hw, hr⟩ := List.mem_flatMap.1 hr
      refine holds_owner (eval_owner hs he w hw) (fun v hv => ?_) r hr
      exact eval_creates hs he v (hv ▸ hw)
    · cases hr

/-- An insert into the processed events occupies its key. -/
theorem footprint_event {s : Stmt β} {row : ProcessedEvent} (hlocks : x.locks s = [])
    (hs : ∀ b ws, x.eval s = .ok (b, ws) → ∀ w ∈ ws, w = .event row) :
    ∀ r ∈ pg.footprint s x, r = .eventKey row.eventId := by
  intro r hr
  rcases List.mem_append.1 hr with hr | hr
  · rw [show pg.locks s x = [] from hlocks] at hr
    cases hr
  · split at hr
    · rename_i b ws he
      obtain ⟨w, hw, hr⟩ := List.mem_flatMap.1 hr
      rw [hs b ws he w hw] at hr
      exact List.mem_singleton.1 hr
    · cases hr

end footprints

/-- The resources of the loyalty schema. -/
def loyaltyLocks : Locking loyaltyRows where
  lock := Resource.lock
  lock_key _ := rfl
  foot_open u x := by
    intro r hr
    by_cases hp : (x.profiles u).isSome = true <;>
      simp_all [Engine.footprint, pg, loyaltyRows, DB.eval, DB.locks, Write.holds, Resource.lock]
  foot_lock u x := by
    intro r hr
    by_cases hp : (x.profiles u).isSome = true <;>
      simp_all [Engine.footprint, pg, loyaltyRows, DB.eval, DB.locks, Resource.lock]
  foot_absent u x hp := by
    simp_all [Engine.footprint, pg, loyaltyRows, DB.eval, DB.locks]
  foot_find k x := by
    cases hk : isTextColumn k <;> simp [Engine.footprint, pg, loyaltyRows, DB.eval, DB.locks, hk]
  foot_claim m x := by
    refine footprint_event rfl fun b ws he w hw => ?_
    simp only [loyaltyRows, DB.eval] at he
    (repeat' split at he) <;> cases he <;> simp_all
  foot_create m x := by
    refine footprint_event rfl fun b ws he w hw => ?_
    simp only [loyaltyRows, DB.eval] at he
    repeat' split at he
    all_goals cases he
    simp_all
  foot_own x _ _ hs := footprint_owner hs

/-- However the statements of any number of calls interleave, nobody waits in a circle, and every wait
    ends at a call that can go on. -/
theorem calls_never_deadlock {ι : Type} [DecidableEq ι] (calls : ι → Call) (clock : ι → Instant)
    (db : DB) (M : Machine ι Stmt TxError DB Write Resource Answer)
    (hr : Reach pg (fun i => (calls i).tx (clock i)) db M) (i : ι) :
    ¬TransGen (Waits pg M) i i ∧ ∃ j, ReflTransGen (Waits pg M) i j ∧ ∀ l, ¬Waits pg M j l := by
  choose own key hD using fun i => tx_disciplined (calls i) (clock i)
  exact no_deadlock loyaltyLocks hD hr i

/-- Two adjustments of one missing profile. -/
def twoAdjustments (_ : Bool) : Call :=
  .modifyPointsGrpc ⟨Uuid.nil.text, .nil, nilText_named⟩ "admin" 5 "goodwill"

theorem calls_never_deadlock_waiting :
    ∃ M : Machine Bool Stmt TxError DB Write Resource Answer,
      Waits pg M false true ∧ ¬TransGen (Waits pg M) false false := by
  -- one has created the profile, which the other is about to do
  have h₀ : Reach pg (fun i => (twoAdjustments i).tx 0) DB.empty (.start _ DB.empty) := .refl
  have h₁ := h₀.tail (.exec (i := true) rfl rfl fun _ _ _ _ hr => nomatch hr)
  exact ⟨_, ⟨by decide, _, .createManyProfile .nil, _, _, _, rfl, .profileKey .nil, by decide, by decide⟩,
    (calls_never_deadlock twoAdjustments (fun _ => 0) DB.empty _ h₁ false).1⟩

end CinemaLoyalty
