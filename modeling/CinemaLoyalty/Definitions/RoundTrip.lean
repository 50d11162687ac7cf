import CinemaLoyalty.CriteriaAgreement
import CinemaLoyalty.Definitions.Input

/-! @svc DefinitionRoundTrip | layer:property | source:src/achievements/validators/admin-achievement-input.validator.ts, src/achievements/mappers/achievement.mapper.ts, src/achievements/admin-achievements.service.ts

    `Valid` is what the validators and the columns leave of a definition. A valid definition comes to
    itself when an admin submits what they are shown, and the worker reads its criteria. The bounds
    of the validators are those of the columns, so beyond them the database refuses nothing but a
    character it cannot store. -/

namespace CinemaLoyalty
open JsonText Utf16

/-- A sequence that succeeds has succeeded at its first part. -/
theorem except_bind_ok {ε α β : Type} {x : Except ε α} {f : α → Except ε β} {b : β}
    (h : (x >>= f) = .ok b) : ∃ a, x = .ok a ∧ f a = .ok b := by
  cases x with
  | error e => cases h
  | ok a => exact ⟨a, rfl, h⟩

/-! ### Fields -/

/-- A text as `requiredString` leaves it. -/
def RequiredText (max : ℕ) (s : String) : Prop := jsTrim s = s ∧ 1 ≤ jsLength s ∧ jsLength s ≤ max

theorem jsTrim_empty : jsTrim "" = "" := by decide

theorem requiredString_ok {value : Option String} {field : String} {max : ℕ} {s : String}
    (h : requiredString value field max = .ok s) : RequiredText max s := by
  unfold requiredString at h
  simp only at h
  split at h
  · cases h
  · rename_i hlength
    cases h
    refine ⟨?_, by omega, by omega⟩
    cases value with
    | none => exact jsTrim_empty
    | some s => exact jsTrim_idem s

theorem requiredString_self {field : String} {max : ℕ} {s : String} (h : RequiredText max s) :
    requiredString (some s) field max = .ok s := by
  obtain ⟨htrim, hpos, hmax⟩ := h
  unfold requiredString
  simp only [Option.map_some, Option.getD_some, htrim]
  exact if_neg (by omega)

/-- A text as `optionalString` leaves it. -/
def OptionalText (value : Option String) : Prop := ∀ s ∈ value, jsTrim s = s ∧ jsLength s ≠ 0

theorem optionalString_ok (value : Option String) : OptionalText (optionalString value) := by
  intro s hs
  unfold optionalString at hs
  obtain ⟨hmap, hlength⟩ := Option.filter_eq_some_iff.1 hs
  obtain ⟨t, -, rfl⟩ := Option.map_eq_some_iff.1 hmap
  exact ⟨jsTrim_idem t, by simpa using hlength⟩

theorem optionalString_self {value : Option String} (h : OptionalText value) :
    optionalString value = value := by
  cases value with
  | none => rfl
  | some s =>
    obtain ⟨htrim, hlength⟩ := h s rfl
    unfold optionalString
    rw [Option.map_some, htrim, Option.filter_some, if_pos (by simpa using hlength)]

theorem mapToPrisma_category (c : AchievementCategory) :
    mapToPrisma GrpcToCategory (some (.fin (CategoryToGrpc c))) "category" = .ok c := by
  cases c <;> simp [mapToPrisma, GrpcToCategory, CategoryToGrpc]

theorem mapToPrisma_rarity (r : AchievementRarity) :
    mapToPrisma GrpcToRarity (some (.fin (RarityToGrpc r))) "rarity" = .ok r := by
  cases r <;> simp [mapToPrisma, GrpcToRarity, RarityToGrpc]

theorem mapToPrisma_strategy (s : AchievementStrategy) :
    mapToPrisma GrpcToStrategy (some (.fin (StrategyToGrpc s))) "strategy" = .ok s := by
  cases s <;> simp [mapToPrisma, GrpcToStrategy, StrategyToGrpc]

theorem intInRange_ok {value : Option JsNumber} {field : String} {min max n : ℤ}
    (h : intInRange value field min max = .ok n) : min ≤ n ∧ n ≤ max := by
  unfold intInRange at h
  simp only at h
  split at h
  · split at h
    · cases h
    · cases h
      omega
  · cases h

theorem intInRange_self {field : String} {min max n : ℤ} (h : min ≤ n ∧ n ≤ max) :
    intInRange (some (.fin n)) field min max = .ok n := by
  unfold intInRange
  simp only [Option.getD_some, JsNumber.toInt?, Rat.den_intCast, Rat.num_intCast, if_true]
  exact if_neg (by omega)

/-! ### Definitions -/

/-- The columns of a definition as the validators and the database leave them. -/
structure AchievementColumns.Valid (a : AchievementColumns) : Prop where
  code : RequiredText ACHIEVEMENT_CODE_MAX_LENGTH a.code
  name : RequiredText ACHIEVEMENT_NAME_MAX_LENGTH a.name
  description : RequiredText ACHIEVEMENT_DESCRIPTION_MAX_LENGTH a.description
  secretHint : OptionalText a.secretHint
  icon : RequiredText ACHIEVEMENT_ICON_MAX_LENGTH a.icon
  criteria : ∃ (c : RawAchievementCriteria) (criteria : AchievementCriteria), c.Normal ∧
    c.decoded = some criteria ∧ (∀ s, c.valueField = some s → 0 ∉ s) ∧ a.criteria = jsonb criteria.toJson
  rewardPoints : 0 ≤ a.rewardPoints ∧ a.rewardPoints ≤ ACHIEVEMENT_MAX_REWARD_POINTS
  sortOrder : ACHIEVEMENT_SORT_ORDER_MIN ≤ a.sortOrder ∧ a.sortOrder ≤ ACHIEVEMENT_SORT_ORDER_MAX
  inRange : a.inRange = true

section definitions
variable {issues : JsValue → String} {req : AchievementMutationRequest}
  {input : NormalizedAchievementInput} {a : AchievementColumns}

/-- Criteria in a `jsonb` column are the criteria with their keys in another order. -/
theorem jsonb_reordered (criteria : AchievementCriteria) :
    Reordered criteria.toJson (jsonb criteria.toJson) :=
  ⟨_, _, rfl, rfl, List.perm_insertionSort _ _⟩

/-- The validator hands over the fields of normal criteria. -/
theorem validate_normal {text : Text} {value : JsValue}
    (h : validateAndParseCriteriaJson issues text = .ok value) :
    ∃ c : RawAchievementCriteria, c.Normal ∧ value = .obj c.fields := by
  unfold validateAndParseCriteriaJson at h
  split at h
  · cases h
  split at h
  · cases h
  · rename_i submitted hsubmitted
    cases h
    exact ⟨_, normalizeCriteria_normal hsubmitted, rfl⟩

/-- What an accepted request has passed. -/
theorem normalize_ok (h : normalizeAchievementInput issues req = .ok input) :
    RequiredText ACHIEVEMENT_CODE_MAX_LENGTH input.code ∧
      RequiredText ACHIEVEMENT_NAME_MAX_LENGTH input.name ∧
      RequiredText ACHIEVEMENT_DESCRIPTION_MAX_LENGTH input.description ∧
      OptionalText input.secretHint ∧ RequiredText ACHIEVEMENT_ICON_MAX_LENGTH input.icon ∧
      (∃ c : RawAchievementCriteria, c.Normal ∧ input.criteria = .obj c.fields) ∧
      (0 ≤ input.rewardPoints ∧ input.rewardPoints ≤ ACHIEVEMENT_MAX_REWARD_POINTS) ∧
      (ACHIEVEMENT_SORT_ORDER_MIN ≤ input.sortOrder ∧
        input.sortOrder ≤ ACHIEVEMENT_SORT_ORDER_MAX) := by
  unfold normalizeAchievementInput at h
  obtain ⟨code, hcode, h⟩ := except_bind_ok h
  obtain ⟨name, hname, h⟩ := except_bind_ok h
  obtain ⟨description, hdescription, h⟩ := except_bind_ok h
  obtain ⟨icon, hicon, h⟩ := except_bind_ok h
  obtain ⟨category, -, h⟩ := except_bind_ok h
  obtain ⟨rarity, -, h⟩ := except_bind_ok h
  obtain ⟨strategy, -, h⟩ := except_bind_ok h
  obtain ⟨criteria, hcriteria, h⟩ := except_bind_ok h
  obtain ⟨rewardPoints, hreward, h⟩ := except_bind_ok h
  obtain ⟨sortOrder, hsort, h⟩ := except_bind_ok h
  cases h
  exact ⟨requiredString_ok hcode, requiredString_ok hname, requiredString_ok hdescription,
    optionalString_ok _, requiredString_ok hicon, validate_normal hcriteria, intInRange_ok hreward,
    intInRange_ok hsort⟩

/-- Another description in an accepted request. -/
theorem normalize_described {description : String} (h : normalizeAchievementInput issues req = .ok input)
    (hd : RequiredText ACHIEVEMENT_DESCRIPTION_MAX_LENGTH description) :
    normalizeAchievementInput issues { req with description := some description } =
      .ok { input with description } := by
  unfold normalizeAchievementInput at h ⊢
  obtain ⟨code, hcode, h⟩ := except_bind_ok h
  obtain ⟨name, hname, h⟩ := except_bind_ok h
  obtain ⟨_, -, h⟩ := except_bind_ok h
  obtain ⟨icon, hicon, h⟩ := except_bind_ok h
  obtain ⟨category, hcategory, h⟩ := except_bind_ok h
  obtain ⟨rarity, hrarity, h⟩ := except_bind_ok h
  obtain ⟨strategy, hstrategy, h⟩ := except_bind_ok h
  obtain ⟨criteria, hcriteria, h⟩ := except_bind_ok h
  obtain ⟨rewardPoints, hreward, h⟩ := except_bind_ok h
  obtain ⟨sortOrder, hsort, h⟩ := except_bind_ok h
  cases h
  simp only [hcode, hname, requiredString_self hd, hicon, hcategory, hrarity, hstrategy, hcriteria,
    hreward, hsort]
  rfl

/-- What the database keeps of an accepted request is valid. -/
theorem columns_valid (h : normalizeAchievementInput issues req = .ok input)
    (ha : input.columns = some a) : a.Valid := by
  obtain ⟨hcode, hname, hdescription, hhint, hicon, ⟨c, hnormal, hcriteria⟩, hreward, hsort⟩ :=
    normalize_ok h
  unfold NormalizedAchievementInput.columns at ha
  simp only [Option.bind_eq_bind, Option.bind_eq_some_iff, Option.ite_none_right_eq_some,
    Option.some.injEq] at ha
  obtain ⟨v, hv, hrange, rfl⟩ := ha
  rw [hcriteria] at hv
  obtain ⟨hzero, criteria, hdecoded, rfl⟩ := (stored_iff hnormal).1 hv
  exact
    { code := hcode
      name := hname
      description := hdescription
      secretHint := hhint
      icon := hicon
      criteria := ⟨c, criteria, hnormal, hdecoded, hzero, rfl⟩
      rewardPoints := hreward
      sortOrder := hsort
      inRange := hrange }

/-- A valid definition that is submitted as it is shown is accepted and comes to the same columns. -/
theorem resubmit {r : AchievementRecord} (issues : JsValue → String) (other : ℚ → Text)
    (h : r.toAchievementColumns.Valid) : ∃ input,
      normalizeAchievementInput issues (toGrpc other r).resubmitted = .ok input ∧
        input.columns = some r.toAchievementColumns := by
  obtain ⟨c, criteria, hnormal, hdecoded, hzero, hcolumn⟩ := h.criteria
  have hcriteria : validateAndParseCriteriaJson issues (toGrpcCriteriaJson other r.criteria) =
      .ok (.obj c.fields) := by
    rw [hcolumn]
    exact validate_column issues other hnormal hdecoded (jsonb_reordered criteria)
  have hstored : stored (.obj c.fields) = some criteria.toJson :=
    (stored_iff hnormal).2 ⟨hzero, criteria, hdecoded, rfl⟩
  refine ⟨{ code := r.code, name := r.name, description := r.description
            secretHint := r.secretHint, isSecret := r.isSecret, icon := r.icon
            category := r.category, rarity := r.rarity, strategy := r.strategy
            criteria := .obj c.fields, rewardPoints := r.rewardPoints, sortOrder := r.sortOrder
            isActive := r.isActive }, ?_, ?_⟩
  · unfold normalizeAchievementInput AchievementDto.resubmitted toGrpc
    simp only [requiredString_self h.code, requiredString_self h.name,
      requiredString_self h.description, requiredString_self h.icon, mapToPrisma_category,
      mapToPrisma_rarity, mapToPrisma_strategy, Option.getD_some, hcriteria,
      intInRange_self h.rewardPoints, intInRange_self h.sortOrder, optionalString_self h.secretHint]
    rfl
  · unfold NormalizedAchievementInput.columns
    simp only [hstored, Option.bind_eq_bind, Option.bind_some, ← hcolumn]
    exact if_pos h.inRange

/-- Three reviews. -/
def reviewCriteria : AchievementCriteria := { field := .REVIEW_LEFT, operator := .gte, target := 3 }

/-- A definition with a name of two words and no hint. -/
def sampleDefinition : AchievementRecord where
  code := "CRITIC"
  name := "Film critic"
  description := "Leave three reviews"
  secretHint := none
  isSecret := true
  icon := "star"
  category := .SPECIAL
  rarity := .RARE
  strategy := .THRESHOLD
  criteria := jsonb reviewCriteria.toJson
  rewardPoints := 50
  sortOrder := -1
  isActive := true
  id := ⟨"3f2504e0-4f89-41d3-9a0c-0305e82c3301", sampleUuid_canonical⟩
  createdAt := 0
  updatedAt := 0

theorem sampleDefinition_valid : sampleDefinition.toAchievementColumns.Valid where
  code := by unfold RequiredText; decide
  name := by unfold RequiredText; decide
  description := by unfold RequiredText; decide
  secretHint := nofun
  icon := by unfold RequiredText; decide
  criteria := ⟨⟨.REVIEW_LEFT, .gte, 3, none⟩, reviewCriteria,
    ⟨⟨by decide, by decide⟩, fun _ => rfl, nofun⟩, rfl, nofun, rfl⟩
  rewardPoints := by decide
  sortOrder := by decide
  inRange := by decide

/-! ### Bounds -/

/-- A string has no more characters than units. -/
theorem length_le_jsLength (s : String) : s.toList.length ≤ jsLength s := by
  unfold jsLength
  generalize s.toList = cs
  induction cs with
  | nil => exact le_rfl
  | cons c cs ih =>
    rw [List.map_cons, List.sum_cons, List.length_cons]
    split <;> omega

/-- A text within the bound of its validator fits its column if it has no U+0000. -/
theorem required_varchar {max : ℕ} {s : String} (h : RequiredText max s) :
    isVarchar max s = isTextColumn s := by
  unfold isVarchar
  rw [decide_eq_true ((length_le_jsLength s).trans h.2.2), Bool.and_true]

/-- The texts of an input. -/
def NormalizedAchievementInput.texts (input : NormalizedAchievementInput) : List String :=
  [input.code, input.name, input.description, input.icon] ++ input.secretHint.toList

/-- The column takes criteria unless their field name has U+0000 or half a surrogate pair. -/
theorem stored_isSome {c : RawAchievementCriteria} (h : c.Normal) :
    (∃ v, stored (.obj c.fields) = some v) ↔
      ∀ s, c.valueField = some s → 0 ∉ s ∧ (toString? s).isSome = true := by
  constructor
  · rintro ⟨v, hv⟩ s hs
    obtain ⟨hzero, criteria, hdecoded, -⟩ := (stored_iff h).1 hv
    refine ⟨hzero s hs, ?_⟩
    simp only [RawAchievementCriteria.decoded, hs, Option.map_eq_some_iff] at hdecoded
    obtain ⟨x, hx, -⟩ := hdecoded
    rw [hx]
    rfl
  · intro hname
    obtain ⟨criteria, hdecoded⟩ : ∃ criteria, c.decoded = some criteria := by
      unfold RawAchievementCriteria.decoded
      cases hs : c.valueField with
      | none => exact ⟨_, rfl⟩
      | some s =>
        obtain ⟨x, hx⟩ := Option.isSome_iff_exists.1 (hname s hs).2
        simp only [hx, Option.map_some]
        exact ⟨_, rfl⟩
    exact ⟨_, (stored_iff h).2 ⟨fun s hs => (hname s hs).1, criteria, hdecoded, rfl⟩⟩

/-- Of an accepted request the database refuses nothing but a text with U+0000, or a field name with
    U+0000 or half a surrogate pair. -/
theorem columns_iff (h : normalizeAchievementInput issues req = .ok input) :
    input.columns.isSome = true ↔ (∀ s ∈ input.texts, '\x00' ∉ s.toList) ∧
      ∀ s, input.criteria.field (ofString "valueField") = some (.str s) →
        0 ∉ s ∧ (toString? s).isSome = true := by
  obtain ⟨hcode, hname, hdescription, -, hicon, ⟨c, hnormal, hcriteria⟩, hreward, hsort⟩ :=
    normalize_ok h
  have hfield : ∀ s, input.criteria.field (ofString "valueField") = some (.str s) ↔
      c.valueField = some s := by
    intro s
    rw [hcriteria, (field_shown hnormal (.refl _)).2.2.2]
    simp
  have htexts : (∀ s ∈ input.texts, '\x00' ∉ s.toList) ↔ isTextColumn input.code = true ∧
      isTextColumn input.name = true ∧ isTextColumn input.description = true ∧
      isTextColumn input.icon = true ∧ input.secretHint.all isTextColumn = true := by
    simp [NormalizedAchievementInput.texts, isTextColumn, Option.all_eq_true, or_imp, forall_and]
  have hints : isInt32 input.rewardPoints = true ∧ isInt16 input.sortOrder = true := by
    unfold ACHIEVEMENT_MAX_REWARD_POINTS at hreward
    unfold ACHIEVEMENT_SORT_ORDER_MIN ACHIEVEMENT_SORT_ORDER_MAX at hsort
    simp only [isInt32, isInt16, Bool.and_eq_true, decide_eq_true_eq]
    omega
  simp only [hfield, ← stored_isSome hnormal, htexts]
  have hranges := And.intro (required_varchar hcode) (And.intro (required_varchar hname)
    (required_varchar hicon))
  unfold ACHIEVEMENT_CODE_MAX_LENGTH ACHIEVEMENT_NAME_MAX_LENGTH ACHIEVEMENT_ICON_MAX_LENGTH at hranges
  unfold NormalizedAchievementInput.columns
  simp only [Option.bind_eq_bind, Option.isSome_iff_exists, Option.bind_eq_some_iff,
    Option.ite_none_right_eq_some, AchievementColumns.inRange, hranges, hints, Bool.and_true,
    Bool.and_eq_true, hcriteria]
  constructor
  · rintro ⟨_, v, hv, ⟨⟨⟨⟨hcode, hname⟩, hdescription⟩, hhint⟩, hicon⟩, -⟩
    exact ⟨⟨hcode, hname, hdescription, hicon, hhint⟩, v, hv⟩
  · rintro ⟨⟨hcode, hname, hdescription, hicon, hhint⟩, v, hv⟩
    exact ⟨_, v, hv, ⟨⟨⟨⟨hcode, hname⟩, hdescription⟩, hhint⟩, hicon⟩, rfl⟩

/-- The sample submitted as it is shown is stored; with U+0000 in its description it is accepted too,
    and refused by the database. -/
theorem sample_columns :
    let shown := (toGrpc (fun _ => []) sampleDefinition).resubmitted
    (∃ input, normalizeAchievementInput (fun _ => "") shown = .ok input ∧
      input.columns.isSome = true ∧ ∀ s ∈ input.texts, '\x00' ∉ s.toList) ∧
    ∃ input, normalizeAchievementInput (fun _ => "") { shown with description := some "\x00" } =
      .ok input ∧ input.columns.isSome = false := by
  obtain ⟨input, hin, hcolumns⟩ := resubmit (fun _ => "") (fun _ => []) sampleDefinition_valid
  have hstored : input.columns.isSome = true := by rw [hcolumns]; rfl
  have hnul : RequiredText ACHIEVEMENT_DESCRIPTION_MAX_LENGTH "\x00" := by unfold RequiredText; decide
  have hrefused := normalize_described hin hnul
  refine ⟨⟨input, hin, hstored, ((columns_iff hin).1 hstored).1⟩, _, hrefused, ?_⟩
  rw [← Bool.not_eq_true, columns_iff hrefused]
  rintro ⟨htexts, -⟩
  exact htexts "\x00" (by simp [NormalizedAchievementInput.texts]) (by decide)

end definitions

end CinemaLoyalty
