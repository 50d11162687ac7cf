import CinemaLoyalty.Schema

/-! @svc Calculator | layer:model | source:src/loyalty/loyalty-calculator.service.ts

    The loyalty rules: the multiplier of a purchase and the tier a profile has earned. A tier only
    ever rises (`le_resolveNewTier`) and is at least the one its counters call for
    (`calculateTier_le_resolveNewTier`). -/

namespace CinemaLoyalty

/-- `isBirthdayWeek`: today lies within three days of the birthday in this or a neighbouring year. -/
def isBirthdayWeek (birthdayDate : Option Instant) (now : Instant) : Bool :=
  match birthdayDate with
  | none => false
  | some birthdayDate =>
    let today := toUtcLocalDate now
    let birthday := toUtcLocalDate birthdayDate
    let candidates := [-1, 0, 1].map fun yearOffset =>
      setUTCFullYear (toUtcLocalDate birthday) (getUTCFullYear today + yearOffset)
    candidates.any fun candidate =>
      decide (((|today - candidate| : ℤ) : ℚ) / MS_IN_A_DAY ≤ LOYALTY_RULES.BIRTHDAY_WEEK_RADIUS_DAYS)

/-- `resolveMultiplier`: tier, birthday week and special events multiply. -/
def resolveMultiplier (profile : LoyaltyProfile) (eventType : EventType) (now : Instant) : ℚ :=
  let multiplier := LOYALTY_RULES.TIER_MULTIPLIERS profile.tier
  let multiplier :=
    if isBirthdayWeek profile.birthdayDate now then
      multiplier * LOYALTY_RULES.BIRTHDAY_MULTIPLIERS profile.tier
    else multiplier
  if eventType = .SPECIAL ∨ eventType = .PREMIERE then
    multiplier * LOYALTY_RULES.SPECIAL_EVENT_MULTIPLIER
  else multiplier

/-- `calculateTierByMetrics`. -/
def calculateTierByMetrics (visits points : ℤ) : Tier :=
  if visits ≥ LOYALTY_RULES.GOLD.visits ∨ points ≥ LOYALTY_RULES.GOLD.points then .GOLD
  else if visits ≥ LOYALTY_RULES.SILVER.visits ∨ points ≥ LOYALTY_RULES.SILVER.points then .SILVER
  else .BRONZE

/-- `resolveNewTier`: the calculated tier when it is higher. -/
def resolveNewTier (currentTier : Tier) (visits points : ℤ) : Tier :=
  let calculatedTier := calculateTierByMetrics visits points
  if TIER_ORDER calculatedTier > TIER_ORDER currentTier then calculatedTier else currentTier

/-- `resolveTransactionType`. -/
def resolveTransactionType (eventType : EventType) : PointsTransactionType :=
  if eventType = .SPECIAL ∨ eventType = .PREMIERE then .EARN_SPECIAL else .EARN_TICKET

/-- The tiers in their order. -/
instance : Preorder Tier := Preorder.lift TIER_ORDER

instance (a b : Tier) : Decidable (a ≤ b) := inferInstanceAs (Decidable (TIER_ORDER a ≤ TIER_ORDER b))

instance (a b : Tier) : Decidable (a < b) := inferInstanceAs (Decidable (TIER_ORDER a < TIER_ORDER b))

theorem bronze_le (a : Tier) : Tier.BRONZE ≤ a := Nat.zero_le _

theorem le_gold (a : Tier) : a ≤ Tier.GOLD := by cases a <;> decide

theorem lt_gold {a : Tier} (h : a ≠ .GOLD) : a < Tier.GOLD := by
  cases a
  · decide
  · decide
  · exact absurd rfl h

/-- A profile's tier never decreases. -/
theorem le_resolveNewTier (t : Tier) (v p : ℤ) : t ≤ resolveNewTier t v p := by
  unfold resolveNewTier
  simp only
  split
  · rename_i h
    exact Nat.le_of_lt h
  · exact le_refl t

/-- A changed tier is a higher one. -/
theorem lt_resolveNewTier {t : Tier} {v p : ℤ} (h : resolveNewTier t v p ≠ t) :
    t < resolveNewTier t v p := by
  unfold resolveNewTier at h ⊢
  simp only at h ⊢
  split
  · rename_i hgt
    exact hgt
  · rename_i hgt
    simp only [hgt, if_false, ne_eq, not_true_eq_false] at h

/-- The new tier is at least the calculated one. -/
theorem calculateTier_le_resolveNewTier (t : Tier) (v p : ℤ) :
    calculateTierByMetrics v p ≤ resolveNewTier t v p := by
  unfold resolveNewTier
  simp only
  split
  · exact le_refl _
  · rename_i h
    exact Nat.le_of_not_lt h

/-- Smaller counters call for no higher tier. -/
theorem calculateTier_mono {v v' p p' : ℤ} (hv : v ≤ v') (hp : p ≤ p') :
    calculateTierByMetrics v p ≤ calculateTierByMetrics v' p' := by
  unfold calculateTierByMetrics
  simp only [LOYALTY_RULES.GOLD, LOYALTY_RULES.SILVER, ge_iff_le]
  split
  · rename_i hg
    have hg' : 20 ≤ v' ∨ 5000 ≤ p' := by omega
    rw [if_pos hg']
  · split
    · rename_i hs
      have hs' : 8 ≤ v' ∨ 2000 ≤ p' := by omega
      split
      · exact le_gold _
      · exact le_refl _
    · exact bronze_le _

example : resolveNewTier .BRONZE 3 2000 = .SILVER := by decide

end CinemaLoyalty
