import CinemaLoyalty.Transaction
import Mathlib.Data.Int.Log

/-! @svc Achievements | layer:model | source:src/achievements

    Achievement progress: the criteria and event schemas, the increment of one event through
    JavaScript's number coercion, the per-achievement transaction of the processor with the
    marker, the progress row, the unlock and the reward, the stored dispatch intents, and the admin
    operations on the definitions. The admin input is taken after `normalizeAchievementInput`.
    A number that comes out of JSON or text is the nearest double; arithmetic on it is exact. -/

namespace CinemaLoyalty
open Txn

/-! ### JavaScript numbers -/

/-- A JavaScript number, exact where it is finite. -/
inductive JsNumber
  | nan
  | inf (negative : Bool)
  | fin (q : ℚ)
  deriving DecidableEq

/-- The double nearest to a number, ties to the even one; beyond the range an infinity. -/
def JsNumber.ofRat (q : ℚ) : JsNumber :=
  if q = 0 then .fin 0
  else
    let lastPlace : ℚ := 2 ^ (max (Int.log 2 |q|) (-1022) - 52)
    let scaled := |q| / lastPlace
    let down := ⌊scaled⌋
    let isDown := scaled - down < 1 / 2 || (scaled - down = 1 / 2 && down % 2 = 0)
    let rounded := (if isDown then down else down + 1) * lastPlace
    if 2 ^ 1024 ≤ rounded then .inf (decide (q < 0))
    else .fin (if q < 0 then -rounded else rounded)

/-- The digits of a number in base `base`, if there is at least one and nothing else. -/
def digitsNat (base : ℕ) (cs : List Char) : Option ℕ :=
  if cs = [] then none
  else
    cs.foldl (fun acc c =>
      match acc with
      | none => none
      | some n =>
        let d :=
          if c.isDigit then c.toNat - 48
          else if 'a' ≤ c.toLower && c.toLower ≤ 'z' then c.toLower.toNat - 87 else base
        if d < base then some (n * base + d) else none) (some 0)

/-- The exponent part of a decimal literal: nothing, or `e`, a sign and digits. -/
def exponentPart : List Char → Option ℤ
  | [] => some 0
  | c :: cs =>
    if c = 'e' ∨ c = 'E' then
      match cs with
      | '+' :: ds => (digitsNat 10 ds).map (fun n => (n : ℤ))
      | '-' :: ds => (digitsNat 10 ds).map (fun n => -(n : ℤ))
      | ds => (digitsNat 10 ds).map (fun n => (n : ℤ))
    else none

/-- An unsigned decimal literal: digits, a fraction, an exponent. -/
def unsignedDecimal (cs : List Char) : Option ℚ :=
  let intPart := cs.takeWhile Char.isDigit
  let rest := cs.dropWhile Char.isDigit
  let (fracPart, rest) :=
    match rest with
    | '.' :: ds => (ds.takeWhile Char.isDigit, ds.dropWhile Char.isDigit)
    | ds => ([], ds)
  match digitsNat 10 (intPart ++ fracPart), exponentPart rest with
  | some n, some e => some ((n : ℚ) * (10 : ℚ) ^ (e - fracPart.length))
  | _, _ => none

/-- `Number(text)`. -/
def stringToNumber (s : String) : JsNumber :=
  let orNan : Option ℚ → JsNumber := fun o => o.elim .nan .ofRat
  let nat : ℕ → List Char → JsNumber := fun base ds => orNan ((digitsNat base ds).map (fun n => (n : ℚ)))
  match jsTrimChars s.toList with
  | [] => .fin 0
  | '0' :: 'x' :: ds => nat 16 ds
  | '0' :: 'X' :: ds => nat 16 ds
  | '0' :: 'o' :: ds => nat 8 ds
  | '0' :: 'O' :: ds => nat 8 ds
  | '0' :: 'b' :: ds => nat 2 ds
  | '0' :: 'B' :: ds => nat 2 ds
  | '+' :: ds => if ds = "Infinity".toList then .inf false else orNan (unsignedDecimal ds)
  | '-' :: ds =>
    if ds = "Infinity".toList then .inf true else orNan ((unsignedDecimal ds).map fun q => -q)
  | ds => if ds = "Infinity".toList then .inf false else orNan (unsignedDecimal ds)

/-- `Number(value)`: an array is the number of its elements' texts joined by commas, an object is
    never a number. -/
def jsNumber : Json → JsNumber
  | .null => .fin 0
  | .bool b => .fin (if b then 1 else 0)
  | .num n => .ofRat n
  | .str s => stringToNumber s
  | .arr [] => .fin 0
  | .arr [.bool _] => .nan
  | .arr [item] => jsNumber item
  | .arr _ => .nan
  | .obj _ => .nan

/-- `Math.round`: halves go up. -/
def JsNumber.round : JsNumber → JsNumber
  | .fin q => .fin (⌊q + 1 / 2⌋ : ℤ)
  | x => x

/-- `value <= 0`; `NaN` compares false. -/
def JsNumber.nonpos : JsNumber → Bool
  | .nan => false
  | .inf negative => negative
  | .fin q => decide (q ≤ 0)

/-- The integer the database client can send for an `Int` column. -/
def JsNumber.toInt? : JsNumber → Option ℤ
  | .fin q => if q.den = 1 then some q.num else none
  | _ => none

/-! ### Schemas -/

/-- `ACHIEVEMENT_CRITERIA_OPERATOR`. -/
inductive AchievementCriteriaOperator | gte | sum
  deriving DecidableEq, Repr

/-- `AchievementCriteria`. -/
structure AchievementCriteria where
  field : AchievementAction
  operator : AchievementCriteriaOperator
  target : ℤ
  valueField : Option String := none
  deriving DecidableEq

/-- `z.enum(ACHIEVEMENT_ACTIONS)`. -/
def AchievementAction.ofText (s : String) : Option AchievementAction :=
  [TICKET_PURCHASED, BULK_TICKET_PURCHASED, REVIEW_LEFT, VIP_SEAT_BOUGHT].find? (·.text = s)

theorem ofText_text (a : AchievementAction) : AchievementAction.ofText a.text = some a := by
  cases a <;> decide

/-- `z.enum(ACHIEVEMENT_CRITERIA_OPERATORS)`. -/
def AchievementCriteriaOperator.ofText (s : String) : Option AchievementCriteriaOperator :=
  if s = "gte" then some .gte else if s = "sum" then some .sum else none

/-- `z.string().trim().min(1).max(64).optional()`; the outer option is the parse result. -/
def parseValueField : Option Json → Option (Option String)
  | none => some none
  | some (.str s) =>
    if 1 ≤ jsLength (jsTrim s) ∧ jsLength (jsTrim s) ≤ 64 then some (some (jsTrim s)) else none
  | _ => none

/-- `z.number().int().positive().max(MAX_ACHIEVEMENT_TARGET)`. -/
def parseTarget : Option Json → Option ℤ
  | some (.num n) =>
    if n.den = 1 ∧ 0 < n.num ∧ n.num ≤ MAX_ACHIEVEMENT_TARGET then some n.num else none
  | _ => none

/-- `AchievementCriteriaSchema.safeParse`. -/
def parseAchievementCriteria (criteria : Json) : Option AchievementCriteria := do
  let .obj _ := criteria | none
  let some (.str field) := criteria.field "field" | none
  let some (.str operator) := criteria.field "operator" | none
  let field ← AchievementAction.ofText field
  let operator ← AchievementCriteriaOperator.ofText operator
  let target ← parseTarget (criteria.field "target")
  let valueField ← parseValueField (criteria.field "valueField")
  return { field, operator, target, valueField }

/-- `ActionEvent`. -/
structure ActionEvent where
  eventId : String
  userId : String
  actionType : AchievementAction
  metadata : Option (List (String × Json)) := none

/-- `ActionEventSchema`: the event id is trimmed, and a record drops the key `__proto__`. -/
def ActionEvent.parse (event : ActionEvent) : Option ActionEvent :=
  let eventId := jsTrim event.eventId
  let metadata := event.metadata.map fun fields => fields.filter (·.1 ≠ "__proto__")
  if 1 ≤ jsLength eventId ∧ jsLength eventId ≤ 91 ∧ zodUuid event.userId = true then
    some { event with eventId, metadata }
  else none

/-- The event as a JSON payload. -/
def ActionEvent.toJson (event : ActionEvent) : Json :=
  .obj ([("eventId", .str event.eventId), ("userId", .str event.userId),
    ("actionType", .str event.actionType.text)] ++
    (event.metadata.map fun fields => [("metadata", Json.obj fields)]).getD [])

/-! ### Progress -/

/-- Names every JavaScript object answers to with an object or a function. -/
def OBJECT_PROTOTYPE : List String :=
  ["__proto__", "constructor", "hasOwnProperty", "isPrototypeOf", "propertyIsEnumerable",
    "toLocaleString", "toString", "valueOf", "__defineGetter__", "__defineSetter__",
    "__lookupGetter__", "__lookupSetter__"]

/-- `Number(metadata?.[valueField] ?? 0)`. -/
def metadataNumber (metadata : Option (List (String × Json))) (valueField : String) : JsNumber :=
  match metadata with
  | none => .fin 0
  | some fields =>
    match (Json.obj fields).field valueField with
    | some raw => jsNumber raw
    | none => if valueField ∈ OBJECT_PROTOTYPE then .nan else .fin 0

/-- `AchievementProgressIncrement`. -/
structure AchievementProgressIncrement where
  incrementBy : JsNumber
  shouldProcess : Bool

/-- `calculateAchievementProgressIncrement`. -/
def calculateAchievementProgressIncrement (criteria : AchievementCriteria) (event : ActionEvent) :
    AchievementProgressIncrement :=
  if criteria.operator ≠ .sum then { incrementBy := .fin 1, shouldProcess := true }
  else
    let valueField := criteria.valueField.getD DEFAULT_SUM_VALUE_FIELD
    let value := metadataNumber event.metadata valueField
    if value.nonpos then { incrementBy := .fin 0, shouldProcess := false }
    else { incrementBy := value.round, shouldProcess := true }

/-- The integer handed to the database, which refuses any other value. -/
def asInt (n : JsNumber) : Tx ℤ :=
  match n.toInt? with
  | none => .throw (.prisma .validation)
  | some n => .pure n

/-- The progress row after an event. -/
def advancedRow (existing : Option UserAchievement) (targetCount n : ℤ) : UserAchievement :=
  match existing with
  | some row => { row with current := row.current + n, target := targetCount }
  | none => { target := targetCount, current := n }

/-- Advance the progress row, or create it. -/
def advance (userId achievementId : Uuid) (existing : Option UserAchievement)
    (targetCount n : ℤ) : Tx UserAchievement :=
  match existing with
  | some _ =>
    Prog.call (.updateUserAchievement userId achievementId fun row =>
      { row with current := row.current + n, target := targetCount })
  | none =>
    Prog.call (.createUserAchievement userId achievementId { target := targetCount, current := n })

/-- The ledger row of a reward. -/
def rewardRow (userId : Uuid) (achievement : Achievement) (newBalance : ℤ) (now : Instant) :
    PointsTransaction where
  userId
  type := .EARN_ACHIEVEMENT
  points := achievement.rewardPoints
  balanceAfter := newBalance
  description := "Unlocked achievement: " ++ achievement.name
  createdAt := now

/-- `${eventId}_${achievement.id}`. -/
def uniqueProcessId (eventId : String) (achievement : Achievement) : String :=
  eventId ++ "_" ++ achievement.id.text

/-- The transaction of `processAchievement`. -/
def processAchievementTx (eventId : String) (userId : Uuid) (achievement : Achievement)
    (targetCount : ℤ) (incrementBy : JsNumber) (now : Instant) : Tx Unit := do
  let _ ← lockLoyaltyProfile userId true
  let idempotency ← Prog.call (.createManyEvent { eventId := uniqueProcessId eventId achievement })
  if idempotency = 0 then
    let existing ← Prog.call (.findEvent (uniqueProcessId eventId achievement))
    if (existing.bind (·.operation)).isSome then
      .throw (.error "Idempotency key is already used for a point command")
    else return ()
  else
    let existingUserAchievement ← Prog.call (.findUserAchievement userId achievement.id)
    if existingUserAchievement.any (·.isUnlocked) then return ()
    let n ← asInt incrementBy
    let updatedUserAchievement ← advance userId achievement.id existingUserAchievement targetCount n
    if updatedUserAchievement.current < updatedUserAchievement.target then return ()
    let unlocked ← Prog.call (.updateManyUserAchievement userId achievement.id
      (fun row => !row.isUnlocked)
      fun row => { row with isUnlocked := true, unlockedAt := some now })
    if unlocked = 0 then return ()
    if achievement.rewardPoints ≤ 0 then return ()
    let updatedProfile ← Prog.call (.updateProfile userId fun p =>
      { p with
        balance := p.balance + achievement.rewardPoints
        lifetimePoints := p.lifetimePoints + achievement.rewardPoints })
    let _ ← Prog.call (.createTransaction (rewardRow userId achievement updatedProfile.balance now))
    return ()

/-- `processAchievement`: an achievement whose criteria do not parse or that the event does not
    advance is skipped. -/
def processAchievement (eventId : String) (userId : Uuid) (achievement : Achievement)
    (event : ActionEvent) (now : Instant) : Tx Unit :=
  match parseAchievementCriteria achievement.criteria with
  | none => .pure ()
  | some criteria =>
    let increment := calculateAchievementProgressIncrement criteria event
    if !increment.shouldProcess then .pure ()
    else processAchievementTx eventId userId achievement criteria.target increment.incrementBy now

/-- `criteria: { path: ['field'], equals: actionType }`. -/
def Achievement.matches (a : Achievement) (actionType : AchievementAction) : Bool :=
  a.isActive &&
    match a.criteria.field "field" with
    | some (.str s) => s = actionType.text
    | _ => false

/-- `findMany` of the processor. -/
def DB.matchingAchievements (db : DB) (actionType : AchievementAction) : List Achievement :=
  db.achievements.filter (·.matches actionType)

/-! ### What a job step does -/

section effect
variable {α : Type} {db db' : DB} {r : α × DB} {eventId : String} {userId : Uuid}
  {achievement : Achievement} {targetCount : ℤ} {now : Instant}

/-- The database with the marker of a step. -/
def DB.marked (db : DB) (userId : Uuid) (marker : String) : DB :=
  (db.ensureProfile userId).apply (.event { eventId := marker })

/-- The progress row once unlocked. -/
def UserAchievement.unlock (row : UserAchievement) (now : Instant) : UserAchievement :=
  { row with isUnlocked := true, unlockedAt := some now }

/-- The database with a reward paid. -/
def DB.rewarded (db : DB) (userId : Uuid) (achievement : Achievement) (p : LoyaltyProfile)
    (now : Instant) : DB :=
  (db.apply (.updateProfile userId
    { p with
      balance := p.balance + achievement.rewardPoints
      lifetimePoints := p.lifetimePoints + achievement.rewardPoints })).post
    (rewardRow userId achievement (p.balance + achievement.rewardPoints) now)

/-- The database after the progress row reached its target: the row is written twice, the second
    time unlocked. -/
def DB.unlocked (db : DB) (userId achievementId : Uuid) (row : UserAchievement) (now : Instant) : DB :=
  (db.apply (.userAchievement userId achievementId row)).apply
    (.userAchievement userId achievementId (row.unlock now))

/-- The five ways a step succeeds: its marker was there, its achievement was unlocked before, it
    advances, it unlocks without or with a reward. -/
inductive ProgressOutcome (db : DB) (eventId : String) (userId : Uuid) (achievement : Achievement)
    (targetCount : ℤ) (now : Instant) : DB → Prop
  | duplicate {e : ProcessedEvent}
      (hb : db.processedEvents (uniqueProcessId eventId achievement) = some e)
      (ho : e.operation = none) :
      ProgressOutcome db eventId userId achievement targetCount now (db.ensureProfile userId)
  | swallowed {row : UserAchievement}
      (hn : db.processedEvents (uniqueProcessId eventId achievement) = none)
      (hrow : db.userAchievements (userId, achievement.id) = some row) (hu : row.isUnlocked = true) :
      ProgressOutcome db eventId userId achievement targetCount now
        (db.marked userId (uniqueProcessId eventId achievement))
  | advanced {n : ℤ} (hn : db.processedEvents (uniqueProcessId eventId achievement) = none)
      (hl : (db.userAchievements (userId, achievement.id)).any (·.isUnlocked) = false)
      (hlt : (advancedRow (db.userAchievements (userId, achievement.id)) targetCount n).current <
        targetCount) :
      ProgressOutcome db eventId userId achievement targetCount now
        ((db.marked userId (uniqueProcessId eventId achievement)).apply
          (.userAchievement userId achievement.id
            (advancedRow (db.userAchievements (userId, achievement.id)) targetCount n)))
  | unlocked {n : ℤ} (hn : db.processedEvents (uniqueProcessId eventId achievement) = none)
      (hl : (db.userAchievements (userId, achievement.id)).any (·.isUnlocked) = false)
      (hge : targetCount ≤
        (advancedRow (db.userAchievements (userId, achievement.id)) targetCount n).current)
      (hr : achievement.rewardPoints ≤ 0) :
      ProgressOutcome db eventId userId achievement targetCount now
        ((db.marked userId (uniqueProcessId eventId achievement)).unlocked userId achievement.id
          (advancedRow (db.userAchievements (userId, achievement.id)) targetCount n) now)
  | rewarded {n : ℤ} (hn : db.processedEvents (uniqueProcessId eventId achievement) = none)
      (hl : (db.userAchievements (userId, achievement.id)).any (·.isUnlocked) = false)
      (hge : targetCount ≤
        (advancedRow (db.userAchievements (userId, achievement.id)) targetCount n).current)
      (hr : 0 < achievement.rewardPoints) :
      ProgressOutcome db eventId userId achievement targetCount now
        (((db.marked userId (uniqueProcessId eventId achievement)).unlocked userId achievement.id
          (advancedRow (db.userAchievements (userId, achievement.id)) targetCount n) now).rewarded
          userId achievement (db.profileOrDefault userId) now)

theorem advance_ok {a : Uuid} {n : ℤ} {k : UserAchievement → Tx α}
    (h : db.run (advance userId a (db.userAchievements (userId, a)) targetCount n >>= k) = .ok r) :
    (db.apply (.userAchievement userId a
      (advancedRow (db.userAchievements (userId, a)) targetCount n))).run
        (k (advancedRow (db.userAchievements (userId, a)) targetCount n)) = .ok r := by
  unfold advance at h
  cases hrow : db.userAchievements (userId, a) with
  | none =>
    simp only [hrow] at h
    exact (createUserAchievement_ok h).2
  | some row =>
    simp only [hrow] at h
    obtain ⟨row', hrow', h⟩ := updateUserAchievement_ok h
    rw [hrow, Option.some.injEq] at hrow'
    subst hrow'
    exact h

theorem advancedRow_target (existing : Option UserAchievement) (n : ℤ) :
    (advancedRow existing targetCount n).target = targetCount := by
  cases existing <;> rfl

theorem advancedRow_locked {existing : Option UserAchievement} (n : ℤ)
    (h : existing.any (·.isUnlocked) = false) :
    (advancedRow existing targetCount n).isUnlocked = false := by
  cases existing with
  | none => rfl
  | some row => simpa [advancedRow] using h

theorem asInt_ok {x : JsNumber} {k : ℤ → Tx α} (h : db.run (asInt x >>= k) = .ok r) :
    ∃ n, x.toInt? = some n ∧ db.run (k n) = .ok r := by
  unfold asInt at h
  split at h
  · cases h
  · rename_i n hn
    exact ⟨n, hn, h⟩

/-- The database after a step counted `n`: the progress row advances, and unlocks and pays its
    reward at the target. -/
def DB.counted (db : DB) (eventId : String) (userId : Uuid) (achievement : Achievement)
    (targetCount n : ℤ) (now : Instant) : DB :=
  let row := advancedRow (db.userAchievements (userId, achievement.id)) targetCount n
  let marked := db.marked userId (uniqueProcessId eventId achievement)
  if row.current < targetCount then marked.apply (.userAchievement userId achievement.id row)
  else
    let unlocked := marked.unlocked userId achievement.id row now
    if achievement.rewardPoints ≤ 0 then unlocked
    else unlocked.rewarded userId achievement (db.profileOrDefault userId) now

/-- The three ways a step succeeds, with the number it counts. -/
inductive StepOutcome (db : DB) (eventId : String) (userId : Uuid) (achievement : Achievement)
    (targetCount : ℤ) (incrementBy : JsNumber) (now : Instant) : DB → Prop
  | duplicate {e : ProcessedEvent}
      (hb : db.processedEvents (uniqueProcessId eventId achievement) = some e)
      (ho : e.operation = none) :
      StepOutcome db eventId userId achievement targetCount incrementBy now (db.ensureProfile userId)
  | swallowed {row : UserAchievement}
      (hn : db.processedEvents (uniqueProcessId eventId achievement) = none)
      (hrow : db.userAchievements (userId, achievement.id) = some row) (hu : row.isUnlocked = true) :
      StepOutcome db eventId userId achievement targetCount incrementBy now
        (db.marked userId (uniqueProcessId eventId achievement))
  | counted {n : ℤ} (hint : incrementBy.toInt? = some n)
      (hn : db.processedEvents (uniqueProcessId eventId achievement) = none)
      (hl : (db.userAchievements (userId, achievement.id)).any (·.isUnlocked) = false) :
      StepOutcome db eventId userId achievement targetCount incrementBy now
        (db.counted eventId userId achievement targetCount n now)

/-- The reward of an unlock raises the profile and appends its ledger row. -/
theorem reward_ok {x : DB} {p : LoyaltyProfile} {a : Unit} (hp : x.profiles userId = some p)
    (h : x.run (do
      let updatedProfile ← Prog.call (.updateProfile userId fun p =>
        { p with
          balance := p.balance + achievement.rewardPoints
          lifetimePoints := p.lifetimePoints + achievement.rewardPoints })
      let _ ← Prog.call
        (.createTransaction (rewardRow userId achievement updatedProfile.balance now))
      return ()) = .ok (a, db')) :
    db' = x.rewarded userId achievement p now := by
  obtain ⟨q, hq, -, h⟩ := updateProfile_ok h
  rw [hp, Option.some.injEq] at hq
  subst hq
  obtain ⟨t, rfl, -, h⟩ := createTransaction_ok h
  cases h
  rfl

/-- A marker that was there before ends the step, unless it belongs to a point command. -/
theorem marker_ok {x : DB} {a : Unit} {marker : String}
    (hs : (x.processedEvents marker).isSome = true)
    (h : x.run (do
      let existing ← Prog.call (.findEvent marker)
      if (existing.bind (·.operation)).isSome then
        .throw (.error "Idempotency key is already used for a point command")
      else return ()) = .ok (a, db')) :
    db' = x ∧ ∃ e, x.processedEvents marker = some e ∧ e.operation = none := by
  rw [Prog.call_bind] at h
  replace h := (findEvent_ok h).2
  cases hk : x.processedEvents marker with
  | none =>
    rw [hk] at hs
    cases hs
  | some e =>
    simp only [hk, Option.bind_some] at h
    split at h
    · cases h
    · rename_i ho
      cases h
      exact ⟨rfl, e, rfl, by simpa using ho⟩

theorem processAchievementTx_step {incrementBy : JsNumber} {a : Unit}
    (h : db.run (processAchievementTx eventId userId achievement targetCount incrementBy now) =
      .ok (a, db')) :
    StepOutcome db eventId userId achievement targetCount incrementBy now db' := by
  unfold processAchievementTx at h
  simp only [run_lock_create, Prog.call_bind] at h
  rcases createManyEvent_ok h with ⟨hn, h⟩ | ⟨hs, h⟩
  · rw [ensureProfile_processedEvents] at hn
    simp only [if_false, run_findUserAchievement, userAchievements_other, Write.table,
      reduceCtorEq, not_false_eq_true, ensureProfile_userAchievements] at h
    split at h
    · rename_i hu
      cases h
      cases hrow : db.userAchievements (userId, achievement.id) with
      | none => simp [hrow] at hu
      | some row => exact .swallowed hn hrow (by simpa [hrow] using hu)
    rename_i hl
    rw [Bool.not_eq_true] at hl
    obtain ⟨n, hint, h⟩ := asInt_ok h
    have hsame : ((db.ensureProfile userId).apply
        (.event { eventId := uniqueProcessId eventId achievement })).userAchievements
          (userId, achievement.id) = db.userAchievements (userId, achievement.id) := by simp
    rw [← hsame] at h
    replace h := advance_ok h
    rw [hsame, advancedRow_target] at h
    have hout : StepOutcome db eventId userId achievement targetCount incrementBy now _ :=
      .counted hint hn hl
    unfold DB.counted at hout
    split at h
    · rename_i hlt
      cases h
      rwa [if_pos hlt] at hout
    rename_i hge
    simp only [if_neg hge] at hout
    rcases updateManyUserAchievement_ok h with ⟨hno, -⟩ | ⟨row, hrow, -, h⟩
    · have := hno _ (by simp; rfl)
      simp [advancedRow_locked n hl] at this
    rw [userAchievements_userAchievement, if_pos rfl, Option.some.injEq] at hrow
    subst hrow
    simp only [reduceCtorEq, if_false] at h
    split at h
    · rename_i hr
      cases h
      rwa [if_pos hr] at hout
    rename_i hr
    rw [if_neg hr] at hout
    rw [reward_ok (p := db.profileOrDefault userId) (by simp) h]
    exact hout
  · simp only [if_true] at h
    obtain ⟨rfl, e, hk, ho⟩ := marker_ok hs h
    exact .duplicate (by rwa [ensureProfile_processedEvents] at hk) ho

theorem processAchievementTx_ok {incrementBy : JsNumber} {a : Unit}
    (h : db.run (processAchievementTx eventId userId achievement targetCount incrementBy now) =
      .ok (a, db')) :
    ProgressOutcome db eventId userId achievement targetCount now db' := by
  cases processAchievementTx_step h with
  | duplicate hb ho => exact .duplicate hb ho
  | swallowed hn hrow hu => exact .swallowed hn hrow hu
  | counted _ hn hl =>
    unfold DB.counted
    simp only
    split
    · exact .advanced hn hl ‹_›
    rename_i hge
    split
    · exact .unlocked hn hl (not_lt.1 hge) ‹_›
    · exact .rewarded hn hl (not_lt.1 hge) (not_le.1 ‹_›)

end effect

/-! ### Dispatch intents -/

/-- The rows of `saveDispatchIntents`; an event that the schema refuses fails the transaction. -/
def intentRows : List ActionEvent → Tx (List (String × AchievementAction × Json))
  | [] => return []
  | event :: events => do
    match event.parse with
    | none => .throw .zod
    | some validated =>
      let rows ← intentRows events
      return (validated.eventId, validated.actionType, validated.toJson) :: rows

/-- `saveDispatchIntents` of events of one user. -/
def saveDispatchIntents (userId : Uuid) (events : List ActionEvent) : Tx Unit := do
  let rows ← intentRows events
  Prog.call (.createManyIntents userId rows)

/-! ### Definitions -/

/-- The columns of an admin request after `normalizeAchievementInput`. -/
structure AchievementInput where
  code : String
  name : String
  criteria : Json
  rewardPoints : ℤ
  isActive : Bool

/-- The row of an input. -/
def AchievementInput.row (input : AchievementInput) (id : Uuid) : Achievement where
  id
  code := input.code
  name := input.name
  criteria := input.criteria
  rewardPoints := input.rewardPoints
  isActive := input.isActive

/-- `achievement.findUnique` by id. -/
def DB.achievement? (db : DB) (id : Uuid) : Option Achievement :=
  db.achievements.find? (·.id = id)

/-- `createAchievementGrpc`; `id` is the drawn uuid. -/
def createAchievementGrpc (id : Uuid) (input : AchievementInput) (db : DB) :
    Except TxError Achievement × DB :=
  if db.achievements.any (·.code = input.code) then
    (.error (.rpc .ALREADY_EXISTS
      ("Achievement with code '" ++ input.code ++ "' already exists")), db)
  else if (db.achievement? id).isSome then (.error (.prisma .P2002), db)
  else (.ok (input.row id), { db with achievements := db.achievements ++ [input.row id] })

/-- `updateAchievementGrpc`. -/
def updateAchievementGrpc (id : Uuid) (input : AchievementInput) (db : DB) :
    Except TxError Achievement × DB :=
  match db.achievement? id with
  | none => (.error (.rpc .NOT_FOUND ("Achievement '" ++ id.text ++ "' not found")), db)
  | some found =>
    if input.code ≠ found.code && db.achievements.any (·.code = input.code) then
      (.error (.rpc .ALREADY_EXISTS
        ("Achievement with code '" ++ input.code ++ "' already exists")), db)
    else
      (.ok (input.row id),
        { db with achievements := db.achievements.map fun a => if a.id = id then input.row id else a })

/-- `deleteAchievementGrpc` deactivates. -/
def deleteAchievementGrpc (id : Uuid) (db : DB) : Except TxError Achievement × DB :=
  match db.achievement? id with
  | none => (.error (.rpc .NOT_FOUND ("Achievement '" ++ id.text ++ "' not found")), db)
  | some found =>
    if !found.isActive then (.ok found, db)
    else
      (.ok { found with isActive := false },
        { db with
          achievements := db.achievements.map fun a =>
            if a.id = id then { a with isActive := false } else a })

end CinemaLoyalty
