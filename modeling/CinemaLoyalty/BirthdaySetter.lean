import CinemaLoyalty.Atomicity
import CinemaLoyalty.BirthdayJob
import CinemaLoyalty.Concurrency
import CinemaLoyalty.Lib.Callers

/-! @svc BirthdaySetter | layer:property | source:src/loyalty/loyalty.service.ts (processUserDateOfBirthSet, grantBirthdayBonusInTransaction), src/prisma/profile-transaction.ts

    The date-of-birth setter next to everything else that writes profiles and grants. Its catch
    clause turns a unique conflict into a success, and the message is then acknowledged. All inserts
    of the setter are on rows of one user, whose profile it has locked, so it meets only the errors
    it would meet alone, and alone it looks for the grant before it inserts it
    (`setter_commits_date`). -/

namespace CinemaLoyalty
open Txn Txn.OwnerStore

/-! ### Writers -/

/-- Whatever writes a profile or a grant: the calls, the reads that create the profile (`upsert`),
    and the mark of the expiry notification, one profile of its batch at a time. -/
inductive Writer
  | call (c : Call)
  | upsert (userId : Uuid)
  | markNotified (userId : Uuid)

/-- The transaction of a writer. A statement on its own locks the row it writes. -/
def Writer.tx (now : Instant) : Writer → Tx Answer
  | .call c => c.tx now
  | .upsert userId => do
    let _ ← lockLoyaltyProfile userId true
    return .done
  | .markNotified userId => do
    let locked ← lockLoyaltyProfile userId
    if !locked then return .count 0
    let n ← Prog.call (.updateManyProfile userId (fun _ => true) fun p =>
      { p with lastExpiryNotificationAt := some now })
    return .count n

/-- What a writer answers, or throws, when its transaction ends. -/
def Writer.answer : Writer → Fate TxError DB Answer → Except TxError Answer
  | _, .committed a _ => .ok a
  | .call c, .failed e => c.recover e
  | _, .failed e => .error e

/-- The failures that no statement raises. A unique conflict is not one: only the database raises
    it, for an insert whose key is taken. -/
def TxError.External (e : TxError) : Prop := e ≠ .prisma .P2002

theorem writer_disciplined (w : Writer) (now : Instant) :
    ∃ u key, loyaltyRows.Disciplined u key (w.tx now) := by
  cases w with
  | call c => exact tx_disciplined c now
  | upsert userId => exact ⟨userId, "", disciplined_created (.pure _)⟩
  | markNotified userId =>
    exact ⟨userId, "", disciplined_locked (.stmt rfl fun _ _ => .pure _) (.inl ⟨_, rfl⟩)⟩

/-! ### The setter's statements -/

section setter
variable {newDate : String → Option Instant} {userId : UuidText} {text : String} {now : Instant}

/-- The inserts all users share are those of processed events. -/
def Stmt.insertsEvent : {β : Type} → Stmt β → Bool
  | _, .createEvent _ | _, .createManyEvent _ => true
  | _, _ => false

theorem shared_insertsEvent {β : Type} {s : Stmt β} (h : loyaltyRows.Shared s) :
    s.insertsEvent = true := by
  cases h <;> rfl

/-- The setter inserts no processed event. -/
theorem setter_issues : Issues pg (fun _ s => ¬loyaltyRows.Shared s)
    ((Call.processUserDateOfBirthSet newDate userId text).tx now) := by
  have owned : ∀ (β : Type) (s : Stmt β), s.owner = some userId.value → ¬loyaltyRows.Shared s := by
    intro β s hs h
    cases h <;> cases hs
  have unshared : ∀ {β : Type} (s : Stmt β), s.insertsEvent = false → ¬loyaltyRows.Shared s := by
    intro β s hs h
    rw [shared_insertsEvent h] at hs
    cases hs
  simp only [Call.tx, processUserDateOfBirthSet]
  split
  · exact .throw _
  split
  · exact .throw _
  refine .stmt (unshared _ rfl) fun _ _ => .stmt (unshared _ rfl) fun _ _ => ?_
  refine .stmt (owned _ _ rfl) fun _ _ => Confined.issues (L := loyaltyRows) owned ?_
  refine Confined.bind ?_ fun _ => .pure _
  show loyaltyRows.Confined _ (ite _ _ _)
  split
  · exact .pure _
  · exact grantBirthdayBonusInTransaction_confined userId

/-- A setter that commits writes its profile. -/
theorem setter_writes {env : DB → Prop} {a : Answer} {pub : List Write}
    (h : Commits env ((Call.processUserDateOfBirthSet newDate userId text).tx now) [] a pub) :
    pub ≠ [] := by
  obtain ⟨r, h, -⟩ := wrap_commits h
  unfold processUserDateOfBirthSet at h
  split at h
  · exact absurd h attempt_throw
  split at h
  · exact absurd h attempt_throw
  obtain ⟨_, _, _, h⟩ := lock_create_commits h
  obtain ⟨_, h⟩ := updateProfile_commits h
  have hgrows := attempt_grows h
  rintro rfl
  simp at hgrows

end setter

/-! ### Every interleaving -/

section runs
variable {ι : Type} [DecidableEq ι] {newDate : String → Option Instant} {userId : UuidText}
  {text : String}

/-- However the setters, the grants and the other writers interleave: no setter fails with a unique
    conflict, and one that returns has committed a profile with its date. -/
theorem setter_commits_date (writers : ι → Writer) (clock : ι → Instant) (db : DB)
    {W : Watched ι Stmt TxError DB Write Resource Answer}
    (hr : WatchReach pg (fun i => (writers i).tx (clock i)) TxError.External db W) {i : ι}
    (hi : writers i = .call (.processUserDateOfBirthSet newDate userId text)) :
    W.fate i ≠ some (.failed (.prisma .P2002)) ∧
      ∀ fate a, W.fate i = some fate → (writers i).answer fate = .ok a →
        ∃ d x, parseUtcLocalDate newDate text = some d ∧ fate = .committed a x ∧
          W.machine.txs i = .done a ∧ (x.profiles userId.value).bind (·.birthdayDate) = some d := by
  choose own key hD using fun j => writer_disciplined (writers j) (clock j)
  have htx : (writers i).tx (clock i) =
      (Call.processUserDateOfBirthSet newDate userId text).tx (clock i) := by rw [hi]; rfl
  have hissues : Issues pg (fun _ s => ¬loyaltyRows.Shared s) ((writers i).tx (clock i)) :=
    htx ▸ setter_issues
  have explained {f : Fate TxError DB Answer} (hf : W.fate i = some f) :
      Explained pg ((writers i).tx (clock i)) TxError.External f := by
    have h := fate_explained hD hissues hr hf
    exact h
  have noConflict : W.fate i ≠ some (.failed (.prisma .P2002)) := by
    intro hf
    rcases explained hf with _ | ⟨he | ⟨y, hy⟩⟩
    · exact he rfl
    · rw [htx] at hy
      exact processUserDateOfBirthSet_no_conflict (run_wrap_error hy)
  refine ⟨noConflict, fun fate a hf ha => ?_⟩
  cases fate with
  | failed e =>
    have hrecover : (Call.processUserDateOfBirthSet newDate userId text).recover e = .ok a := by
      rwa [hi] at ha
    rw [setter_recovers hrecover] at hf
    exact absurd hf noConflict
  | committed a' x =>
    cases ha
    cases explained hf with
    | committed hrun hattempt =>
      rw [htx] at hrun hattempt
      obtain ⟨r, hrun, -⟩ := run_wrap (hrun.resolve_right (setter_writes hattempt))
      obtain ⟨d, hd, hdate⟩ := setter_birthdayDate hrun
      exact ⟨d, _, hd, rfl, fate_done hr hf, hdate⟩

/-- A setter and the scheduled grant of the same user. -/
def birthdayWriters : Bool → Writer
  | true => .call (.processUserDateOfBirthSet (fun _ => none) Uuid.nil.asText "1960-02-29")
  | false => .call (.grantBirthdayBonusForUser Uuid.nil.asText)

/-- The setter's statements on a day that is not the birthday. -/
theorem birthdayWriters_setter : ∃ d, parseUtcLocalDate (fun _ => none) "1960-02-29" = some d ∧
    isDateColumn d = true ∧ (birthdayWriters true).tx 0 = .stmt (.createManyProfile .nil) fun _ => .stmt (.lockProfile .nil)
      fun _ => .stmt (.updateProfile .nil fun p => { p with birthdayDate := some d })
        fun _ => .pure (.birthday .saved) := by
  obtain ⟨d, hd, hcolumn, hfuture, hday⟩ :
      ∃ d, parseUtcLocalDate (fun _ => none) "1960-02-29" = some d ∧ isDateColumn d = true ∧
        isFutureUtcLocalDate d 0 = false ∧ isSameUtcMonthDay d 0 = false := by decide
  refine ⟨d, hd, hcolumn, ?_⟩
  simp [birthdayWriters, Writer.tx, Call.tx, processUserDateOfBirthSet, hd, hfuture, hday,
    lockLoyaltyProfile, Uuid.asText]

theorem setter_commits_date_overlapping :
    ∃ W : Watched Bool Stmt TxError DB Write Resource Answer,
      WatchReach pg (fun i => (birthdayWriters i).tx 0) TxError.External DB.empty W ∧
        ∃ d x, parseUtcLocalDate (fun _ => none) "1960-02-29" = some d ∧
          W.fate true = some (.committed (.birthday .saved) x) ∧
            (x.profiles .nil).bind (·.birthdayDate) = some d := by
  obtain ⟨d, hd, hcolumn, htx⟩ := birthdayWriters_setter
  -- the scheduled grant looks for the profile while the setter creates it
  have h₀ : WatchReach pg (fun i => (birthdayWriters i).tx 0) TxError.External DB.empty
      (.start _ DB.empty) := .refl
  have h₁ := h₀.tail (.moves (.exec (i := true) (congrArg (Status.running · [] []) htx) rfl
    fun _ _ _ _ => List.not_mem_nil))
  have h₂ := h₁.tail (.moves (.exec (i := false) rfl rfl fun _ _ _ hr => nomatch hr))
  have h₃ := h₂.tail (.moves (.exec (i := true) rfl rfl (other_free rfl)))
  have h₄ := h₃.tail (.moves (.exec (i := true) rfl (if_pos (.inr hcolumn)) (other_free rfl)))
  have h₅ := h₄.tail (.commits (i := false) rfl)
  have h₆ := h₅.tail (.commits (i := true) rfl)
  obtain ⟨W, hW, x, hf⟩ : ∃ W, WatchReach pg (fun i => (birthdayWriters i).tx 0) TxError.External
      DB.empty W ∧ ∃ x, W.fate true = some (.committed (.birthday .saved) x) := ⟨_, h₆, _, rfl⟩
  obtain ⟨d', x', hd', heq, -, hx⟩ :=
    (setter_commits_date birthdayWriters (fun _ => 0) DB.empty hW (i := true) rfl).2 _ _ hf rfl
  cases heq
  exact ⟨W, hW, d', x, hd', hf, hx⟩

end runs

end CinemaLoyalty
