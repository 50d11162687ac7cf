import CinemaLoyalty.Service

/-! @svc Unlocks | layer:property | source:src/achievements/processors/achievements.processor.ts, src/achievements/admin-achievements.service.ts

    An achievement is unlocked once and rewarded at most once. A job step moves one progress row and
    pays a reward only in the transaction that unlocks it (`progress_step`), every other operation
    leaves progress and rewards alone (`quiet_step`), and an unlocked row is final. -/

namespace CinemaLoyalty

/-- The reward rows of a user. -/
def DB.earnedOf (db : DB) (userId : Uuid) : List PointsTransaction :=
  (db.ledgerOf userId).filter (·.type = .EARN_ACHIEVEMENT)

/-- The achievement of a user is unlocked. -/
def DB.Unlocked (db : DB) (userId achievementId : Uuid) : Prop :=
  (db.userAchievements (userId, achievementId)).any (·.isUnlocked) = true

theorem unlocked_iff {db : DB} {u a : Uuid} : db.Unlocked u a ↔
    ∃ row, db.userAchievements (u, a) = some row ∧ row.isUnlocked = true := by
  unfold DB.Unlocked
  cases db.userAchievements (u, a) <;> simp

/-- A row is unlocked exactly when its target is reached, and then has its time. -/
structure UserAchievement.Consistent (row : UserAchievement) : Prop where
  reached : row.isUnlocked = true ↔ row.target ≤ row.current
  stamped : row.unlockedAt.isSome = true ↔ row.isUnlocked = true

/-- What a job step does to the progress row of its user and achievement, and to the rewards. -/
inductive ProgressStep (db : DB) (userId : Uuid) (achievement : Achievement) (db' : DB) : Prop
  | still (hp : db'.userAchievements = db.userAchievements)
      (he : ∀ u, db'.earnedOf u = db.earnedOf u)
  | advanced (targetCount n : ℤ) (hl : ¬db.Unlocked userId achievement.id)
      (hlt : (advancedRow (db.userAchievements (userId, achievement.id)) targetCount n).current <
        targetCount)
      (hp : ∀ k, db'.userAchievements k = if k = (userId, achievement.id) then
        some (advancedRow (db.userAchievements (userId, achievement.id)) targetCount n)
        else db.userAchievements k)
      (he : ∀ u, db'.earnedOf u = db.earnedOf u)
  | unlocked (targetCount n : ℤ) (now : Instant) (hl : ¬db.Unlocked userId achievement.id)
      (hge : targetCount ≤
        (advancedRow (db.userAchievements (userId, achievement.id)) targetCount n).current)
      (hp : ∀ k, db'.userAchievements k = if k = (userId, achievement.id) then
        some ((advancedRow (db.userAchievements (userId, achievement.id)) targetCount n).unlock now)
        else db.userAchievements k)
      (he : (∀ u, db'.earnedOf u = db.earnedOf u) ∨ 0 < achievement.rewardPoints ∧
        ∃ t : PointsTransaction, t.points = achievement.rewardPoints ∧
          ∀ u, db'.earnedOf u = db.earnedOf u ++ if userId = u then [t] else [])

section steps
variable {db db' : DB} {userId : Uuid} {achievement : Achievement}

theorem earnedOf_congr {u : Uuid} (h : db'.ledgerOf u = db.ledgerOf u) :
    db'.earnedOf u = db.earnedOf u := by
  unfold DB.earnedOf; rw [h]

@[simp] theorem earnedOf_other {w : Write} (h : ¬w.table = .ledger) (u : Uuid) :
    (db.apply w).earnedOf u = db.earnedOf u := earnedOf_congr (ledgerOf_other h u)

@[simp] theorem earnedOf_transaction (t : PointsTransaction) (u : Uuid) :
    (db.apply (.transaction t)).earnedOf u =
      db.earnedOf u ++ if t.userId = u ∧ t.type = .EARN_ACHIEVEMENT then [t] else [] := by
  unfold DB.earnedOf
  rw [ledgerOf_transaction]
  by_cases hu : t.userId = u <;> by_cases ht : t.type = .EARN_ACHIEVEMENT <;>
    simp [hu, ht, List.filter_append]

@[simp] theorem earnedOf_ensure (v u : Uuid) : (db.ensureProfile v).earnedOf u = db.earnedOf u :=
  earnedOf_congr (ensureProfile_ledgerOf v u)

@[simp] theorem earnedOf_announced {v : UuidText} {oldTier newTier : Tier} {now : Instant} (u : Uuid) :
    (db.announced v oldTier newTier now).earnedOf u = db.earnedOf u :=
  earnedOf_congr (announced_ledgerOf u)

@[simp] theorem earnedOf_withIntents (v u : Uuid) (rows : List (String × AchievementAction × Json)) :
    (db.withIntents v rows).earnedOf u = db.earnedOf u :=
  earnedOf_congr (withIntents_ledgerOf v u rows)

theorem progress_step {eventId : String} {targetCount : ℤ} {now : Instant}
    (h : ProgressOutcome db eventId userId achievement targetCount now db') :
    ProgressStep db userId achievement db' := by
  have hlocked : (db.userAchievements (userId, achievement.id)).any (·.isUnlocked) = false →
      ¬db.Unlocked userId achievement.id := fun h => by simp [DB.Unlocked, h]
  cases h with
  | duplicate _ _ => exact .still (by simp) (fun _ => by simp)
  | swallowed _ _ _ => exact .still (by simp [DB.marked]) (fun _ => by simp [DB.marked])
  | @advanced n hn hl hlt =>
    exact .advanced targetCount n (hlocked hl) hlt (fun k => by simp [DB.marked])
      (fun _ => by simp [DB.marked])
  | @unlocked n hn hl hge hr =>
    refine .unlocked targetCount n now (hlocked hl) hge (fun k => ?_)
      (.inl fun _ => by simp [DB.marked, DB.unlocked])
    by_cases hk : k = (userId, achievement.id) <;> simp [DB.marked, DB.unlocked, hk]
  | @rewarded n hn hl hge hr =>
    refine .unlocked targetCount n now (hlocked hl) hge (fun k => ?_) (.inr ⟨hr, ?_⟩)
    · by_cases hk : k = (userId, achievement.id) <;>
        simp [DB.marked, DB.unlocked, DB.rewarded, DB.post, hk]
    · refine ⟨db.numbered (rewardRow userId achievement
        ((db.profileOrDefault userId).balance + achievement.rewardPoints) now), rfl, fun u => ?_⟩
      simp [DB.rewarded, DB.post, DB.marked, DB.unlocked, DB.numbered, rewardRow]

/-- A call that is no job step. -/
def Call.Quiet : Call → Prop
  | .processAchievement _ _ => False
  | _ => True

/-- A change of any other call leaves progress and rewards alone. -/
theorem quiet_step (h : Change Call.Quiet db db') :
    db'.userAchievements = db.userAchievements ∧ ∀ u, db'.earnedOf u = db.earnedOf u := by
  cases h with
  | ensured v => exact ⟨by simp, fun _ => by simp⟩
  | deducted _ _ _ _ _ _ =>
    exact ⟨by simp [DB.deducted], fun _ => by simp [DB.deducted, PointCommand.debitRow]⟩
  | refunded _ _ _ _ _ _ _ _ =>
    exact ⟨by simp [DB.refunded], fun _ => by simp [DB.refunded, PointCommand.refundRow]⟩
  | @purchased msg n now rows _ _ _ _ =>
    have ht : resolveTransactionType msg.eventType ≠ .EARN_ACHIEVEMENT := by
      cases msg.eventType <;> decide
    by_cases hn : n > 0
    · exact ⟨by simp [DB.purchased, DB.credited, hn, DB.post],
        fun _ => by simp [DB.purchased, DB.credited, hn, DB.post, TicketPurchasedDto.earnedRow, ht]⟩
    · exact ⟨by simp [DB.purchased, DB.credited, hn], fun _ => by simp [DB.purchased, DB.credited, hn]⟩
  | birthdaySet _ _ => exact ⟨by simp [DB.birthdaySet], fun _ => by simp [DB.birthdaySet]⟩
  | birthdayGranted _ _ _ =>
    exact ⟨by simp [DB.birthdayGranted], fun _ => by simp [DB.birthdayGranted, birthdayRow]⟩
  | @adjusted userId adminId reason points now _ _ =>
    have ht : (if points > 0 then PointsTransactionType.ADMIN_ADDITION else .ADMIN_DEDUCTION) ≠
        .EARN_ACHIEVEMENT := by split <;> decide
    exact ⟨by simp [DB.adjusted, DB.post], fun _ => by simp [DB.adjusted, DB.post, adjustmentRow, ht]⟩
  | vipGranted _ =>
    exact ⟨by simp [DB.vipGranted, DB.post], fun _ => by simp [DB.vipGranted, DB.post, vipRow]⟩
  | expired _ _ => exact ⟨by simp [DB.post], fun _ => by simp [DB.post, expireRow]⟩
  | annualReset _ => exact ⟨by simp, fun _ => by simp⟩
  | mirrored _ _ => exact ⟨by simp, fun _ => by simp⟩
  | reserved _ => exact ⟨by simp, fun _ => by simp⟩
  | released _ _ _ => exact ⟨by simp, fun _ => by simp⟩
  | progressed hc _ => obtain ⟨_, hc⟩ := hc; exact hc.elim
  | defined _ => exact ⟨rfl, fun _ => rfl⟩

/-- An operation is a job step, or leaves progress and rewards alone. -/
theorem op_progress (op : Op) (db : DB) :
    (∃ event achievement now userId, op = .call (.processAchievement event achievement) now ∧
      ProgressStep db userId achievement (op.exec db)) ∨
    (op.exec db).userAchievements = db.userAchievements ∧
      ∀ u, (op.exec db).earnedOf u = db.earnedOf u := by
  by_cases hquiet : ∀ c now, op = .call c now → c.Quiet
  · right
    exact changes_invariant (I := fun x => x.userAchievements = db.userAchievements ∧
        ∀ u, x.earnedOf u = db.earnedOf u)
      (fun _ _ hI hc => ⟨(quiet_step hc).1.trans hI.1, fun u => ((quiet_step hc).2 u).trans (hI.2 u)⟩)
      (op_changes op db hquiet) ⟨rfl, fun _ => rfl⟩
  simp only [not_forall] at hquiet
  obtain ⟨c, now, rfl, hc⟩ := hquiet
  cases c with
  | processAchievement event achievement =>
    simp only [Op.exec]
    rcases exec_cases (.processAchievement event achievement) now db with ⟨e, -, hx⟩ | ⟨a, db', hr, hx⟩
    · right; rw [hx]; exact ⟨rfl, fun _ => rfl⟩
    · rw [hx]
      obtain ⟨r, hr, -⟩ := run_wrap hr
      rcases processAchievementJob_ok hr with rfl | ⟨_, userId, _, h⟩
      · right; exact ⟨rfl, fun _ => rfl⟩
      · left; exact ⟨event, achievement, now, userId, rfl, progress_step h⟩
  | _ => exact (hc trivial).elim

/-- Every progress row is consistent. -/
def DB.ProgressConsistent (db : DB) : Prop :=
  ∀ k row, db.userAchievements k = some row → row.Consistent

/-- A locked row is unstamped, and stays so while it only advances. -/
theorem advancedRow_unstamped {existing : Option UserAchievement} {targetCount n : ℤ}
    (hc : ∀ row, existing = some row → row.Consistent)
    (hl : existing.any (·.isUnlocked) ≠ true) :
    (advancedRow existing targetCount n).unlockedAt.isSome = false := by
  cases existing with
  | none => rfl
  | some row =>
    have hrow : ¬row.isUnlocked = true := by simpa using hl
    simpa [advancedRow] using mt (hc row rfl).stamped.1 hrow

theorem consistent_step (hc : db.ProgressConsistent) (h : ProgressStep db userId achievement db') :
    db'.ProgressConsistent := by
  cases h with
  | still hp _ => unfold DB.ProgressConsistent; rw [hp]; exact hc
  | advanced targetCount n hl hlt hp _ =>
    intro k row hrow
    rw [hp] at hrow
    split at hrow
    · cases hrow
      have hlocked := @advancedRow_locked targetCount _ n (Bool.not_eq_true _ ▸ hl)
      have hstamp := @advancedRow_unstamped _ targetCount n (hc _) hl
      refine ⟨?_, ?_⟩
      · rw [hlocked, advancedRow_target]
        simp only [Bool.false_eq_true, false_iff, not_le]
        exact hlt
      · rw [hlocked, hstamp]
    · exact hc k row hrow
  | unlocked targetCount n now hl hge hp _ =>
    intro k row hrow
    rw [hp] at hrow
    split at hrow
    · cases hrow
      refine ⟨⟨fun _ => ?_, fun _ => rfl⟩, ⟨fun _ => rfl, fun _ => rfl⟩⟩
      exact le_of_eq_of_le (advancedRow_target _ _) hge
    · exact hc k row hrow

/-- An unlocked row is final. -/
theorem unlocked_final (op : Op) {k : Uuid × Uuid} {row : UserAchievement}
    (hrow : db.userAchievements k = some row) (hu : row.isUnlocked = true) :
    (op.exec db).userAchievements k = some row := by
  rcases op_progress op db with ⟨event, achievement, now, userId, -, h⟩ | ⟨hp, -⟩
  · have hother : ¬db.Unlocked userId achievement.id → k ≠ (userId, achievement.id) := by
      rintro hl rfl
      exact hl (unlocked_iff.2 ⟨row, hrow, hu⟩)
    cases h with
    | still hp _ => rw [hp]; exact hrow
    | advanced _ _ hl _ hp _ => rw [hp, if_neg (hother hl)]; exact hrow
    | unlocked _ _ _ hl _ hp _ => rw [hp, if_neg (hother hl)]; exact hrow
  · rw [hp]; exact hrow

end steps

/-! ### Over runs -/

theorem run_consistent (ops : List Op) {db : DB} (h : db.ProgressConsistent) :
    (db.runOps ops).ProgressConsistent := by
  induction ops generalizing db with
  | nil => exact h
  | cons op ops ih =>
    have hstep : (op.exec db).ProgressConsistent := by
      rcases op_progress op db with ⟨_, _, _, _, -, hs⟩ | ⟨hp, -⟩
      · exact consistent_step h hs
      · unfold DB.ProgressConsistent; rw [hp]; exact h
    exact ih hstep

theorem run_final (ops : List Op) {db : DB} {k : Uuid × Uuid} {row : UserAchievement}
    (h : db.userAchievements k = some row) (hu : row.isUnlocked = true) :
    (db.runOps ops).userAchievements k = some row := by
  induction ops generalizing db with
  | nil => exact h
  | cons op ops ih => exact ih (unlocked_final op h hu)

/-- The operation is a job step of the achievement that writes one reward row for the user. -/
def Awards (db : DB) (op : Op) (userId : Uuid) (achievement : Achievement) : Prop :=
  ∃ event now t, op = .call (.processAchievement event achievement) now ∧
    t.points = achievement.rewardPoints ∧ (op.exec db).earnedOf userId = db.earnedOf userId ++ [t]

/-- An award is positive and happens in the step that unlocks. -/
theorem awards_unlock {db : DB} {op : Op} {u : Uuid} {achievement : Achievement}
    (h : Awards db op u achievement) : 0 < achievement.rewardPoints ∧
      ¬db.Unlocked u achievement.id ∧ (op.exec db).Unlocked u achievement.id := by
  obtain ⟨event, now, t, rfl, -, hw⟩ := h
  have hne : (Op.exec db (.call (.processAchievement event achievement) now)).earnedOf u ≠
      db.earnedOf u := by rw [hw]; simp
  rcases op_progress (.call (.processAchievement event achievement) now) db with
    ⟨event', achievement', now', userId, heq, hs⟩ | ⟨-, he⟩
  · cases heq
    cases hs with
    | still _ he => exact (hne (he u)).elim
    | advanced _ _ _ _ _ he => exact (hne (he u)).elim
    | unlocked targetCount n now' hl _ hp he =>
      rcases he with he | ⟨hpos, t', -, he⟩
      · exact (hne (he u)).elim
      · by_cases hu : userId = u
        · subst hu
          refine ⟨hpos, hl, ?_⟩
          unfold DB.Unlocked
          rw [hp, if_pos rfl]
          rfl
        · rw [he u, if_neg hu, List.append_nil] at hne
          exact (hne rfl).elim
  · exact (hne (he u)).elim

/-- Reward rows are written by awards only. -/
theorem earned_cases (db : DB) (op : Op) (u : Uuid) :
    (op.exec db).earnedOf u = db.earnedOf u ∨ ∃ achievement, Awards db op u achievement := by
  rcases op_progress op db with ⟨event, achievement, now, userId, rfl, hs⟩ | ⟨-, he⟩
  · cases hs with
    | still _ he => exact .inl (he u)
    | advanced _ _ _ _ _ he => exact .inl (he u)
    | unlocked targetCount n now' hl _ hp he =>
      rcases he with he | ⟨-, t, ht, he⟩
      · exact .inl (he u)
      · by_cases hu : userId = u
        · exact .inr ⟨achievement, event, now, t, rfl, ht, by rw [he u, if_pos hu]⟩
        · left; rw [he u, if_neg hu, List.append_nil]
  · exact .inl (he u)

/-- After any sequence of operations from the empty database: every progress row is unlocked exactly
    when its target is reached and stamped exactly when it is unlocked; an unlocked row stays as it
    is, whatever follows; a reward row is only written by a job step that unlocks an achievement with
    a positive reward; and no achievement is rewarded twice to a user. -/
theorem achievements_unlock_once (ops : List Op) (u : Uuid) :
    let db := DB.empty.runOps ops
    (∀ a row, db.userAchievements (u, a) = some row →
      (row.isUnlocked = true ↔ row.target ≤ row.current) ∧
      (row.unlockedAt.isSome = true ↔ row.isUnlocked = true)) ∧
    (∀ a row later, db.userAchievements (u, a) = some row → row.isUnlocked = true →
      (db.runOps later).userAchievements (u, a) = some row) ∧
    (∀ op, (op.exec db).earnedOf u = db.earnedOf u ∨ ∃ achievement, Awards db op u achievement) ∧
    (∀ op achievement, Awards db op u achievement → 0 < achievement.rewardPoints ∧
      ¬db.Unlocked u achievement.id ∧ (op.exec db).Unlocked u achievement.id) ∧
    ∀ op achievement later op' achievement', Awards db op u achievement →
      achievement'.id = achievement.id →
      ¬Awards ((op.exec db).runOps later) op' u achievement' := by
  have hc : (DB.empty.runOps ops).ProgressConsistent := run_consistent ops fun _ _ h => by cases h
  refine ⟨fun a row hrow => ⟨(hc _ row hrow).reached, (hc _ row hrow).stamped⟩,
    fun a row later hrow hu => run_final later hrow hu, fun op => earned_cases _ op u,
    fun op achievement h => awards_unlock h, ?_⟩
  intro op achievement later op' achievement' h hid h'
  obtain ⟨-, -, hu⟩ := awards_unlock h
  obtain ⟨-, hl, -⟩ := awards_unlock h'
  obtain ⟨row, hrow, hrowu⟩ := unlocked_iff.1 hu
  rw [hid] at hl
  exact hl (unlocked_iff.2 ⟨row, run_final later hrow hrowu, hrowu⟩)

end CinemaLoyalty
