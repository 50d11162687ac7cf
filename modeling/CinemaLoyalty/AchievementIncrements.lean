import CinemaLoyalty.AchievementOrder

/-! @svc AchievementIncrements | layer:property | source:src/achievements/helpers/achievement-progress.helper.ts, src/achievements/processors/achievements.processor.ts

    What an event may add. The sign test of the helper lets three kinds of numbers through that
    count nothing: what is not a number at all, infinity, and fractions below one half, which round
    to zero. `increments_sound_iff` says that these are all. -/

namespace CinemaLoyalty

/-- The event is skipped, or adds a positive integer. -/
def AchievementProgressIncrement.Sound (increment : AchievementProgressIncrement) : Prop :=
  increment.shouldProcess = false ∨ ∃ n : ℤ, increment.incrementBy.toInt? = some n ∧ 1 ≤ n

/-- The number does not pass the sign test, or is finite and rounds to one or more. -/
def JsNumber.Countable (value : JsNumber) : Prop :=
  value.nonpos = true ∨ ∃ q, value = .fin q ∧ 1 / 2 ≤ q

/-- The criteria count events, or the summed number is fit to be counted. -/
def Fit (criteria : AchievementCriteria) (event : ActionEvent) : Prop :=
  criteria.operator ≠ .sum ∨
    (metadataNumber event.metadata
      (criteria.valueField.getD DEFAULT_SUM_VALUE_FIELD)).Countable

section increments
variable {criteria : AchievementCriteria} {event : ActionEvent}

theorem toInt_int (n : ℤ) : (JsNumber.fin n).toInt? = some n := by
  simp [JsNumber.toInt?]

theorem toInt_round {value : JsNumber} {n : ℤ} : value.round.toInt? = some n ↔
    ∃ q, value = .fin q ∧ ⌊q + 1 / 2⌋ = n := by
  cases value with
  | nan => simp [JsNumber.round, JsNumber.toInt?]
  | inf negative => simp [JsNumber.round, JsNumber.toInt?]
  | fin q =>
    unfold JsNumber.round
    simp only [toInt_int, Option.some.injEq, JsNumber.fin.injEq, exists_eq_left']

/-- A rounded number is a positive integer exactly from one half on. -/
theorem round_positive {value : JsNumber} :
    (∃ n : ℤ, value.round.toInt? = some n ∧ 1 ≤ n) ↔ ∃ q, value = .fin q ∧ 1 / 2 ≤ q := by
  have hfloor : ∀ q : ℚ, 1 ≤ ⌊q + 1 / 2⌋ ↔ 1 / 2 ≤ q := by
    intro q
    rw [Int.le_floor, Int.cast_one]
    constructor <;> intro h <;> linarith
  constructor
  · rintro ⟨n, hn, hpos⟩
    obtain ⟨q, hq, rfl⟩ := toInt_round.1 hn
    exact ⟨q, hq, (hfloor q).1 hpos⟩
  · rintro ⟨q, hq, hhalf⟩
    exact ⟨_, toInt_round.2 ⟨q, hq, rfl⟩, (hfloor q).2 hhalf⟩

theorem sound_iff : (calculateAchievementProgressIncrement criteria event).Sound ↔
    Fit criteria event := by
  unfold calculateAchievementProgressIncrement Fit AchievementProgressIncrement.Sound
  by_cases hop : criteria.operator = .sum
  · simp only [hop, ne_eq, not_true_eq_false, if_false, false_or, JsNumber.Countable]
    generalize metadataNumber event.metadata
      (criteria.valueField.getD DEFAULT_SUM_VALUE_FIELD) = value
    by_cases hneg : value.nonpos = true
    · simp [hneg]
    · simp only [hneg, if_false, false_or, Bool.true_eq_false, Bool.false_eq_true]
      exact round_positive
  · simp only [hop, ne_eq, not_false_eq_true, if_true, true_or, iff_true]
    exact .inr ⟨1, toInt_int 1, le_refl 1⟩

/-- A new marker of a locked achievement comes with progress. -/
theorem marked_counts {achievement : Achievement} {eventId : String} {userId : Uuid} {now : Instant}
    {db db' : DB} (hfit : Fit criteria event)
    (hcriteria : parseAchievementCriteria achievement.criteria = some criteria)
    (h : db.run (processAchievement eventId userId achievement event now) = .ok ((), db'))
    (hnew : db.seen (uniqueProcessId eventId achievement) = false)
    (hmarked : db'.seen (uniqueProcessId eventId achievement) = true)
    (hlocked : ¬db.Unlocked userId achievement.id) :
    ∃ n, 1 ≤ n ∧
      db'.currentOf userId achievement.id = db.currentOf userId achievement.id + n := by
  unfold processAchievement at h
  simp only [hcriteria] at h
  cases hprocess : (calculateAchievementProgressIncrement criteria event).shouldProcess with
  | false =>
    simp only [hprocess, Bool.not_false, if_true] at h
    cases h
    rw [hnew] at hmarked
    cases hmarked
  | true =>
    simp only [hprocess, Bool.not_true, Bool.false_eq_true, if_false] at h
    obtain ⟨n, hint, hpos⟩ : ∃ n : ℤ,
        (calculateAchievementProgressIncrement criteria event).incrementBy.toInt? = some n ∧
          1 ≤ n := by
      rcases sound_iff.2 hfit with hskip | hsound
      · rw [hprocess] at hskip
        cases hskip
      · exact hsound
    refine ⟨n, hpos, ?_⟩
    cases processAchievementTx_step h with
    | duplicate hb _ => simp [DB.seen, hb] at hnew
    | swallowed _ hrow hu => exact absurd (unlocked_iff.2 ⟨_, hrow, hu⟩) hlocked
    | @counted m hm _ _ =>
      obtain rfl : n = m := Option.some.inj (hint.symm.trans hm)
      unfold DB.currentOf
      rw [counted_progress, if_pos rfl]
      cases hrow : db.userAchievements (userId, achievement.id) with
      | none => by_cases hlt : n < criteria.target <;> simp [advancedRow, hlt, UserAchievement.unlock]
      | some row =>
        by_cases hlt : row.current + n < criteria.target <;>
          simp [advancedRow, hlt, UserAchievement.unlock]

end increments

/-- An increment is sound exactly when the criteria count events or the number read from the metadata
    is not positive or finite and at least one half; and then no new marker of a locked achievement
    is taken without progress. -/
theorem increments_sound_iff (criteria : AchievementCriteria) (event : ActionEvent) :
    ((calculateAchievementProgressIncrement criteria event).Sound ↔ Fit criteria event) ∧
      (Fit criteria event → ∀ (eventId : String) (userId : Uuid) (achievement : Achievement)
        (now : Instant) (db db' : DB),
        parseAchievementCriteria achievement.criteria = some criteria →
        db.run (processAchievement eventId userId achievement event now) = .ok ((), db') →
        db.seen (uniqueProcessId eventId achievement) = false →
        db'.seen (uniqueProcessId eventId achievement) = true →
        ¬db.Unlocked userId achievement.id →
        ∃ n, 1 ≤ n ∧
          db'.currentOf userId achievement.id = db.currentOf userId achievement.id + n) :=
  ⟨sound_iff, fun hfit _ _ _ _ _ _ hcriteria h hnew hmarked hlocked =>
    marked_counts hfit hcriteria h hnew hmarked hlocked⟩

/-- Criteria that sum the amounts. -/
def summedCriteria : Json := .obj
  [("field", .str "TICKET_PURCHASED"), ("operator", .str "sum"), ("target", .num 500)]

/-- An event whose amount is `raw`. -/
def eventOfAmount (raw : Json) : ActionEvent where
  eventId := "1"
  userId := Uuid.nil.text
  actionType := .TICKET_PURCHASED
  metadata := some [("amount", raw)]

theorem eventOfAmount_parse (raw : Json) : ((eventOfAmount raw).parse).isSome = true := by
  have hid : 1 ≤ jsLength (jsTrim "1") ∧ jsLength (jsTrim "1") ≤ 91 ∧
      zodUuid Uuid.nil.text = true := by decide +kernel
  unfold ActionEvent.parse eventOfAmount
  rw [if_pos hid]
  rfl

/-- Accepted criteria and accepted events with an amount of one quarter, which adds nothing, and with
    an amount that is no number, which no database column takes. -/
theorem quarter_adds_nothing : ∃ criteria, parseAchievementCriteria summedCriteria = some criteria ∧
    (∀ raw, ((eventOfAmount raw).parse).isSome = true) ∧
    ¬(calculateAchievementProgressIncrement criteria (eventOfAmount (.num (1 / 4)))).Sound ∧
    ¬(calculateAchievementProgressIncrement criteria (eventOfAmount (.str "ten"))).Sound := by
  refine ⟨_, rfl, eventOfAmount_parse, ?_, ?_⟩
  · rintro (h | ⟨n, hn, hpos⟩)
    · revert h
      decide +kernel
    · have hzero : (calculateAchievementProgressIncrement
          { field := .TICKET_PURCHASED, operator := .sum, target := 500 }
          (eventOfAmount (.num (1 / 4)))).incrementBy.toInt? = some 0 := by decide +kernel
      have hn' := hzero.symm.trans hn
      cases hn'
      exact absurd hpos (by decide)
  · rintro (h | ⟨n, hn, -⟩)
    · revert h
      decide +kernel
    · have hnone : (calculateAchievementProgressIncrement
          { field := .TICKET_PURCHASED, operator := .sum, target := 500 }
          (eventOfAmount (.str "ten"))).incrementBy.toInt? = none := by decide +kernel
      cases hnone.symm.trans hn

end CinemaLoyalty
