import CinemaLoyalty.Definitions.Linearization
import Mathlib.Data.List.Forall2
import Mathlib.Data.List.Perm.Basic

/-! @svc UserListing | layer:property | source:src/achievements/achievements.service.ts (getUserAchievementsGrpc), src/achievements/mappers/achievement.mapper.ts (toUserAchievementGrpc, toLockedSecretGrpc)

    What a user is shown of the achievements, and what a locked secret keeps to itself. The ORDER BY
    leaves rows of one `updatedAt` in any order, so a query has a set of possible answers; two
    databases that a user must not tell apart have the same set. -/

namespace CinemaLoyalty
open Utf16 Txn

/-! ### Query -/

/-- A row of `user_achievements`. -/
structure ProgressRecord extends UserAchievement where
  userId : Uuid
  achievementId : Uuid
  updatedAt : Instant

/-- A row with `include: { achievement: true }`. -/
structure UserAchievementRecord extends ProgressRecord where
  achievement : AchievementRecord

/-- `UserAchievementDto`. -/
structure UserAchievementDto where
  achievement : AchievementDto
  current : ℤ
  target : ℤ
  isUnlocked : Bool
  unlockedAt : Option String
  deriving DecidableEq

/-- `toLockedSecretGrpc`. -/
def toLockedSecretGrpc (achievement : AchievementRecord) : AchievementDto where
  id := achievement.id
  code := "secret-" ++ achievement.id.text
  name := "Secret achievement"
  description := achievement.secretHint.getD ""
  secretHint := achievement.secretHint
  isSecret := true
  icon := "lock"
  category := CategoryToGrpc achievement.category
  rarity := RarityToGrpc achievement.rarity
  strategy := StrategyToGrpc achievement.strategy
  criteriaJson := ofString "\x7b\x7d"
  rewardPoints := 0
  sortOrder := achievement.sortOrder
  isActive := achievement.isActive
  createdAt := toISOString achievement.createdAt
  updatedAt := toISOString achievement.updatedAt

/-- `toUserAchievementGrpc`. -/
def toUserAchievementGrpc (other : ℚ → Text) (maskLockedSecrets : Bool)
    (userAchievement : UserAchievementRecord) : UserAchievementDto :=
  let shouldMask :=
    maskLockedSecrets && userAchievement.achievement.isSecret && !userAchievement.isUnlocked
  if shouldMask then
    { achievement := toLockedSecretGrpc userAchievement.achievement
      current := 0
      target := 1
      isUnlocked := false
      unlockedAt := none }
  else
    { achievement := toGrpc other userAchievement.achievement
      current := userAchievement.current
      target := userAchievement.target
      isUnlocked := userAchievement.isUnlocked
      unlockedAt := userAchievement.unlockedAt.map toISOString }

/-- The rows that `getUserAchievementsGrpc` selects of one user's rows. -/
def selectedAchievement (t : AchievementTable) (includeLocked : Bool) (p : ProgressRecord) :
    Option UserAchievementRecord :=
  ((t.row? p.achievementId).filter (·.isActive)).bind fun achievement =>
    if includeLocked || p.isUnlocked then some { p with achievement } else none

/-- The where clause of `getUserAchievementsGrpc`. -/
def selectedAchievements (t : AchievementTable) (rows : List ProgressRecord) (userId : Uuid)
    (includeLocked : Bool) : List UserAchievementRecord :=
  (rows.filter (·.userId = userId)).filterMap (selectedAchievement t includeLocked)

/-- `orderBy: [{ updatedAt: 'desc' }]`. -/
def LatestFirst (a b : UserAchievementRecord) : Prop := b.updatedAt ≤ a.updatedAt

instance : DecidableRel LatestFirst := fun _ _ => inferInstanceAs (Decidable (_ ≤ _))

/-- An answer of `getUserAchievementsGrpc`. -/
def GetUserAchievementsResponse (other : ℚ → Text) (t : AchievementTable)
    (rows : List ProgressRecord) (userId : Uuid) (includeLocked : Bool)
    (response : List UserAchievementDto) : Prop :=
  ∃ records : List UserAchievementRecord, records.Perm (selectedAchievements t rows userId includeLocked) ∧
    records.Pairwise LatestFirst ∧ response = records.map (toUserAchievementGrpc other true)

/-! ### Secrets -/

/-- Two secrets that agree in what is shown of them while they are locked. -/
structure SameSecret (a b : AchievementRecord) : Prop where
  isSecret : a.isSecret = true ∧ b.isSecret = true
  id : a.id = b.id
  secretHint : a.secretHint = b.secretHint
  category : a.category = b.category
  rarity : a.rarity = b.rarity
  strategy : a.strategy = b.strategy
  sortOrder : a.sortOrder = b.sortOrder
  isActive : a.isActive = b.isActive
  createdAt : a.createdAt = b.createdAt
  updatedAt : a.updatedAt = b.updatedAt

/-- Two rows of a user that look the same: the same row with the same achievement, or both locked
    with secrets that may differ, at any progress. -/
inductive SameRow (t t' : AchievementTable) (p p' : ProgressRecord) : Prop
  | same (hrow : p = p') (ha : t.row? p.achievementId = t'.row? p'.achievementId)
  | locked {a a' : AchievementRecord} (hlocked : p.isUnlocked = false ∧ p'.isUnlocked = false)
      (hupdated : p.updatedAt = p'.updatedAt) (ha : t.row? p.achievementId = some a)
      (ha' : t'.row? p'.achievementId = some a') (hsecret : SameSecret a a')

/-- Two databases that a user must not tell apart: the user's rows look the same. -/
def SameTo (userId : Uuid) (t t' : AchievementTable) (rows rows' : List ProgressRecord) : Prop :=
  List.Forall₂ (SameRow t t') (rows.filter (·.userId = userId)) (rows'.filter (·.userId = userId))

/-- Two selected rows with one place in the order and one message. -/
def SameMessage (other : ℚ → Text) (x y : UserAchievementRecord) : Prop :=
  x.updatedAt = y.updatedAt ∧ toUserAchievementGrpc other true x = toUserAchievementGrpc other true y

section secrets
variable {other : ℚ → Text} {t t' : AchievementTable} {rows rows' : List ProgressRecord}
  {userId : Uuid} {includeLocked : Bool}

theorem SameSecret.symm {a b : AchievementRecord} (h : SameSecret a b) : SameSecret b a where
  isSecret := h.isSecret.symm
  id := h.id.symm
  secretHint := h.secretHint.symm
  category := h.category.symm
  rarity := h.rarity.symm
  strategy := h.strategy.symm
  sortOrder := h.sortOrder.symm
  isActive := h.isActive.symm
  createdAt := h.createdAt.symm
  updatedAt := h.updatedAt.symm

theorem SameRow.symm {p p' : ProgressRecord} (h : SameRow t t' p p') : SameRow t' t p' p := by
  cases h with
  | same hrow ha => exact .same hrow.symm ha.symm
  | locked hlocked hupdated ha ha' hsecret =>
    exact .locked hlocked.symm hupdated.symm ha' ha hsecret.symm

theorem SameTo.symm (h : SameTo userId t t' rows rows') : SameTo userId t' t rows' rows :=
  (List.Forall₂.imp (fun _ _ => SameRow.symm) h).flip

theorem sameSecret_message {a b : AchievementRecord} (h : SameSecret a b) :
    toLockedSecretGrpc a = toLockedSecretGrpc b := by
  simp only [toLockedSecretGrpc, h.id, h.secretHint, h.category, h.rarity, h.strategy, h.sortOrder,
    h.isActive, h.createdAt, h.updatedAt]

/-- A locked secret is shown as itself and nothing else. -/
theorem toUserAchievementGrpc_locked {x : UserAchievementRecord} (hs : x.achievement.isSecret = true)
    (hl : x.isUnlocked = false) : toUserAchievementGrpc other true x =
      { achievement := toLockedSecretGrpc x.achievement
        current := 0
        target := 1
        isUnlocked := false
        unlockedAt := none } := by
  simp only [toUserAchievementGrpc, hs, hl, Bool.and_self, Bool.not_false, if_true]

/-- Rows that look the same are both selected or both left out. -/
theorem sameRow_selected {p p' : ProgressRecord} (h : SameRow t t' p p') :
    Option.Rel (SameMessage other) (selectedAchievement t includeLocked p)
      (selectedAchievement t' includeLocked p') := by
  cases h with
  | same hrow ha =>
    subst hrow
    have hsame : selectedAchievement t includeLocked p = selectedAchievement t' includeLocked p := by
      rw [selectedAchievement, ha, selectedAchievement]
    rw [hsame]
    cases selectedAchievement t' includeLocked p with
    | none => exact .none
    | some x => exact .some ⟨rfl, rfl⟩
  | @locked a a' hlocked hupdated ha ha' hsecret =>
    unfold selectedAchievement
    rw [ha, ha', hlocked.1, hlocked.2, Option.filter_some, Option.filter_some, hsecret.isActive]
    cases a'.isActive with
    | false => exact .none
    | true =>
      cases includeLocked with
      | false => exact .none
      | true =>
        refine .some ⟨hupdated, ?_⟩
        rw [toUserAchievementGrpc_locked hsecret.isSecret.1 hlocked.1,
          toUserAchievementGrpc_locked hsecret.isSecret.2 hlocked.2, sameSecret_message hsecret]

theorem sameTo_selected (h : SameTo userId t t' rows rows') :
    List.Forall₂ (SameMessage other) (selectedAchievements t rows userId includeLocked)
      (selectedAchievements t' rows' userId includeLocked) :=
  List.rel_filterMap (R := SameRow t t') (fun _ _ hrow => sameRow_selected hrow) h

theorem latestFirst_iff {records : List UserAchievementRecord} : records.Pairwise LatestFirst ↔
    (records.map (·.updatedAt)).Pairwise fun a b => b ≤ a := by
  rw [List.pairwise_map]
  rfl

theorem sameMessage_maps {records records' : List UserAchievementRecord}
    (h : List.Forall₂ (SameMessage other) records records') :
    records.map (·.updatedAt) = records'.map (·.updatedAt) ∧
      records.map (toUserAchievementGrpc other true) =
        records'.map (toUserAchievementGrpc other true) := by
  induction h with
  | nil => exact ⟨rfl, rfl⟩
  | cons hxy _ ih => simp only [List.map_cons, hxy.1, hxy.2, ih.1, ih.2, and_self]

/-- One direction of `locked_secrets_hidden`. -/
theorem sameTo_answers {response : List UserAchievementDto} (h : SameTo userId t t' rows rows')
    (hr : GetUserAchievementsResponse other t rows userId includeLocked response) :
    GetUserAchievementsResponse other t' rows' userId includeLocked response := by
  obtain ⟨records, hperm, ho, rfl⟩ := hr
  obtain ⟨records', hsame, hperm'⟩ := List.perm_comp_forall₂ hperm (sameTo_selected h)
  obtain ⟨htimes, hmap⟩ := sameMessage_maps hsame
  rw [latestFirst_iff, htimes, ← latestFirst_iff] at ho
  exact ⟨records', hperm', ho, hmap⟩

/-- A user who has not unlocked a secret cannot tell its code, name, description, icon, criteria and
    reward, nor how far they are: databases that differ in nothing else, and in whatever belongs to
    other users, have the same possible answers. -/
theorem locked_secrets_hidden (other : ℚ → Text) (includeLocked : Bool)
    (response : List UserAchievementDto) (h : SameTo userId t t' rows rows') :
    GetUserAchievementsResponse other t rows userId includeLocked response ↔
      GetUserAchievementsResponse other t' rows' userId includeLocked response :=
  ⟨sameTo_answers h, sameTo_answers h.symm⟩

/-- The sample with other contents. -/
def sampleReworded : AchievementRecord :=
  { sampleDefinition with
    code := "SNOB", name := "Film snob", description := "Be hard to please", rewardPoints := 999 }

/-- A locked row of the sample. -/
def sampleProgress (current : ℤ) : ProgressRecord where
  current := current
  target := 3
  userId := Uuid.nil
  achievementId := sampleDefinition.id
  updatedAt := 0

/-- Two reviews left and the sample, or none and the sample reworded: one answer. -/
theorem sampleReworded_hidden : ∃ response,
    GetUserAchievementsResponse (fun _ => []) [sampleDefinition] [sampleProgress 2] Uuid.nil true
        response ∧
      GetUserAchievementsResponse (fun _ => []) [sampleReworded] [sampleProgress 0] Uuid.nil true
        response := by
  have hrow : ∀ r : AchievementRecord, AchievementTable.row? [r] r.id = some r := fun r =>
    AchievementTable.row?_mem (List.nodup_singleton _) (List.mem_singleton_self _)
  have hown : ∀ current, [sampleProgress current].filter (·.userId = Uuid.nil) =
      [sampleProgress current] := by
    intro current
    simp [sampleProgress]
  have hsame : SameTo Uuid.nil [sampleDefinition] [sampleReworded] [sampleProgress 2]
      [sampleProgress 0] := by
    rw [SameTo, hown, hown]
    exact .cons (.locked ⟨rfl, rfl⟩ rfl (hrow sampleDefinition) (hrow sampleReworded)
      ⟨⟨rfl, rfl⟩, rfl, rfl, rfl, rfl, rfl, rfl, rfl, rfl, rfl⟩) .nil
  have hordered : (selectedAchievements [sampleDefinition] [sampleProgress 2] Uuid.nil true).Pairwise
      LatestFirst := by
    rw [selectedAchievements, hown, List.filterMap_cons, List.filterMap_nil]
    split
    · exact .nil
    · exact List.pairwise_singleton _ _
  have h : GetUserAchievementsResponse (fun _ => []) [sampleDefinition] [sampleProgress 2] Uuid.nil
      true _ := ⟨_, .refl _, hordered, rfl⟩
  exact ⟨_, h, (locked_secrets_hidden _ true _ hsame).1 h⟩

end secrets

end CinemaLoyalty
