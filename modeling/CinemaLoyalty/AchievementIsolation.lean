import CinemaLoyalty.AchievementOrder

/-! @svc AchievementIsolation | layer:property | source:src/achievements/processors/achievements.processor.ts, src/achievements/achievements.service.ts

    Users and each other's events. Intents are stored under user, event and action, but the worker's
    marker names the event and the achievement only: of two users with one event id the second loses
    the event. `processing_isolated_iff` says when a user ends as if alone, `uncontested_isolated`
    that distinct event ids are enough. -/

namespace CinemaLoyalty
open Tally

/-- Processing all intents gives every user what processing the user's own gives. -/
def Isolated (db : DB) (intents : List Intent) : Prop :=
  ∀ ts x, Complete db intents ts x → ∀ u ts' y,
    Complete db (intents.filter (·.userId = u)) ts' y → SameProgress u x y

/-- The pending events of the user that no other user's event beat to the marker. -/
def DB.kept (db : DB) (intents : List Intent) (ts : List Try) (u : Uuid) (a : Achievement) :
    List Intent :=
  (db.pending intents u a).filter (wins ts a)

/-- There is an event, and the user's progress reaches the target by the events. -/
def DB.UnlockedBy (db : DB) (u : Uuid) (a : Achievement) (events : List Intent) : Prop :=
  events ≠ [] ∧ a.target ≤ db.currentOf u a.id + a.total events

/-- The events that the user lost to others do not matter: the achievement was unlocked before, the
    other events unlock it, or all of them do not and the lost ones add nothing. -/
def Unharmed (db : DB) (intents : List Intent) (ts : List Try) (u : Uuid) (a : Achievement) : Prop :=
  db.Unlocked u a.id ∨ db.UnlockedBy u a (db.kept intents ts u a) ∨
    ¬db.UnlockedBy u a (db.pending intents u a) ∧
      a.total (db.kept intents ts u a) = a.total (db.pending intents u a)

section isolation
variable {db x y : DB} {intents events : List Intent} {ts ts' : List Try} {u : Uuid}
  {a : Achievement}

/-- Alone or not, the same events of the user are pending. -/
theorem pending_own : db.pending (intents.filter (·.userId = u)) u a = db.pending intents u a := by
  unfold DB.pending
  rw [List.filter_filter]
  refine List.filter_congr fun i _ => ?_
  by_cases hu : i.userId = u <;> simp [hu]

theorem total_nonneg (events : List Intent) : ∀ n ∈ events.filterMap fun i => a.amount? i.event,
    0 ≤ n := by
  intro n hn
  obtain ⟨i, -, hi⟩ := List.mem_filterMap.1 hn
  exact amount_nonneg hi

/-- Every pending event has an amount. -/
theorem unlockedBy_iff (h : ∀ i ∈ events, i ∈ db.pending intents u a) : db.UnlockedBy u a events ↔
    Reaches a.target (db.currentOf u a.id) (events.filterMap fun i => a.amount? i.event) := by
  refine and_congr_left fun _ => not_congr ⟨fun hnil => by rw [hnil]; rfl, fun hnil => ?_⟩
  refine List.eq_nil_iff_forall_not_mem.2 fun i hi => ?_
  have hnone := List.filterMap_eq_nil_iff.1 hnil i hi
  have hpending := (List.mem_filter.1 (h i hi)).2
  simp [Achievement.appliesTo, hnone] at hpending

/-- One achievement of one user: the meters agree exactly when the user is unharmed in it. -/
theorem meter_iff_unharmed (hids : (db.achievements.map (·.id)).Nodup)
    (hkeys : (intents.map (·.key)).Nodup) (h : Complete db intents ts x)
    (h' : Complete db (intents.filter (·.userId = u)) ts' y) (ha : a ∈ db.achievements) :
    x.meter u a.id = y.meter u a.id ↔ Unharmed db intents ts u a := by
  have hperm := counts_perm hids hkeys h.only ha (u := u)
  have hkeys' : ((intents.filter (·.userId = u)).map (·.key)).Nodup :=
    hkeys.sublist (List.filter_sublist.map _)
  have huser : ∀ i ∈ intents.filter (·.userId = u), i.userId = u :=
    fun i hi => by simpa using (List.mem_filter.1 hi).2
  have hperm' := counts_alone hids hkeys' huser h' ha
  rw [pending_own] at hperm'
  rw [(h.tallied hids).meter u a ha, (h'.tallied hids).meter u a ha,
    run_perm hperm fun n hn => counts_nonneg hn,
    run_perm hperm' fun n hn => counts_nonneg hn,
    run_eq_iff (total_nonneg _) (total_nonneg _) (List.filter_sublist.filterMap _), meter_unlocked]
  by_cases hu : db.Unlocked u a.id
  · simp [Unharmed, hu]
  · rw [meter_locked hu]
    simp only [Meter.locked.injEq, exists_eq_left', false_or, Unharmed, hu]
    have hkept : ∀ i ∈ db.kept intents ts u a, i ∈ db.pending intents u a :=
      fun i hi => (List.mem_filter.1 hi).1
    rw [unlockedBy_iff hkept, unlockedBy_iff fun i hi => hi]
    rfl

/-- Where every event is kept, the user is unharmed. -/
theorem unharmed_of_wins (h : ∀ i ∈ db.pending intents u a, wins ts a i = true) :
    Unharmed db intents ts u a := by
  have hkept : db.kept intents ts u a = db.pending intents u a := List.filter_eq_self.2 h
  unfold Unharmed
  rw [hkept]
  by_cases hu : db.UnlockedBy u a (db.pending intents u a)
  · exact .inr (.inl hu)
  · exact .inr (.inr ⟨hu, rfl⟩)

/-- Where no two users have an event id of one action in common, every user ends as if alone. -/
theorem uncontested_isolated (hids : (db.achievements.map (·.id)).Nodup)
    (hkeys : (intents.map (·.key)).Nodup)
    (hown : ∀ i ∈ intents, ∀ j ∈ intents, i.event.eventId = j.event.eventId →
      i.event.actionType = j.event.actionType → i.userId = j.userId) : Isolated db intents := by
  intro ts x h u ts' y h'
  refine (same_iff_meters (h.tallied hids) (h'.tallied hids)).2 fun a ha => ?_
  refine (meter_iff_unharmed hids hkeys h h' ha).2 (unharmed_of_wins fun i hi => ?_)
  obtain ⟨s, hmem, hs, hevent, haction⟩ := pending_first hids h ha hi
  have huser := hown _ (h.only s hmem).1 i (List.mem_filter.1 hi).1 hevent haction
  unfold wins
  rw [hs, Option.any_some, decide_eq_true huser]

/-- In any order, with duplicates and failed transactions: a user ends a complete run over the
    intents of all users as after processing the user's own intents alone exactly when, for every
    achievement, the events whose marker was first reached for another user add nothing or are not
    needed. -/
theorem processing_isolated_iff (hids : (db.achievements.map (·.id)).Nodup)
    (hkeys : (intents.map (·.key)).Nodup) (h : Complete db intents ts x)
    (h' : Complete db (intents.filter (·.userId = u)) ts' y) :
    SameProgress u x y ↔ ∀ a ∈ db.achievements, Unharmed db intents ts u a := by
  rw [same_iff_meters (h.tallied hids) (h'.tallied hids)]
  exact forall₂_congr fun a ha => meter_iff_unharmed hids hkeys h h' ha

/-- A second user. -/
def friend : Uuid := ⟨"11111111-1111-4111-8111-111111111111", by decide⟩

/-- The friend's purchase in the order of the first purchase. -/
def sharedPurchase : Intent where
  event := { firstPurchase.event with userId := friend.text }
  userId := friend
  valid := rfl
  named := rfl

def friendPurchase : Intent where
  event := { secondPurchase.event with userId := friend.text }
  userId := friend
  valid := rfl
  named := rfl

/-- One order of two users, and one more of the friend. -/
def contested : List Intent := [firstPurchase, sharedPurchase, friendPurchase]

theorem contested_own : contested.filter (·.userId = friend) = [sharedPurchase, friendPurchase] :=
  rfl

theorem contested_complete (h : DB.withRegular.runTries ts = some x)
    (hts : ∀ t ∈ ts, t.intent ∈ contested ∧ t.achievement = regular)
    (hall : ∀ i ∈ contested,
      ∃ t ∈ ts, t.intent = i ∧ t.achievement = regular ∧ t.commits = true) :
    Complete DB.withRegular contested ts x :=
  regular_complete h hts (by
    simp [contested, firstPurchase, sharedPurchase, friendPurchase, secondPurchase]) hall

theorem friend_complete (h : DB.withRegular.runTries ts = some x)
    (hts : ∀ t ∈ ts, t.intent ∈ [sharedPurchase, friendPurchase] ∧ t.achievement = regular)
    (hall : ∀ i ∈ [sharedPurchase, friendPurchase],
      ∃ t ∈ ts, t.intent = i ∧ t.achievement = regular ∧ t.commits = true) :
    Complete DB.withRegular (contested.filter (·.userId = friend)) ts x :=
  contested_own ▸ regular_complete h hts (by
    simp [firstPurchase, sharedPurchase, friendPurchase, secondPurchase]) hall

/-- The friend comes first in the shared order and ends as if alone. -/
theorem processing_isolated_iff_shared :
    ∃ ts ts' x y, Complete DB.withRegular contested ts x ∧
      Complete DB.withRegular (contested.filter (·.userId = friend)) ts' y ∧
        SameProgress friend x y := by
  let first : Try := ⟨firstPurchase, regular, 0, true⟩
  let shared : Try := ⟨sharedPurchase, regular, 0, true⟩
  let other : Try := ⟨friendPurchase, regular, 0, true⟩
  obtain ⟨x, hx⟩ := Option.isSome_iff_exists.1 (by decide +kernel :
    (DB.withRegular.runTries [shared, first, other, shared]).isSome = true)
  obtain ⟨y, hy⟩ := Option.isSome_iff_exists.1 (by decide +kernel :
    (DB.withRegular.runTries [other, shared]).isSome = true)
  have h := contested_complete hx (by simp [contested, first, shared, other])
    (by simp [contested, first, shared, other])
  have h' := friend_complete hy (by simp [shared, other]) (by simp [shared, other])
  refine ⟨_, _, x, y, h, h',
    (processing_isolated_iff (by decide) (by decide) h h').2 fun a ha => ?_⟩
  obtain rfl := List.mem_singleton.1 ha
  exact unharmed_of_wins (by decide +kernel)

/-- Behind the other user in the shared order, the friend loses it: one of two purchases is counted
    and the achievement stays locked. -/
theorem shared_order_lost : (contested.map (·.key)).Nodup ∧ ¬Isolated DB.withRegular contested := by
  refine ⟨by decide, fun hisolated => ?_⟩
  let first : Try := ⟨firstPurchase, regular, 0, true⟩
  let shared : Try := ⟨sharedPurchase, regular, 0, true⟩
  let other : Try := ⟨friendPurchase, regular, 0, true⟩
  obtain ⟨x, hx, hlocked⟩ := Option.map_eq_some_iff.1 (by decide +kernel :
    (DB.withRegular.runTries [first, shared, other]).map
      (fun x => (x.userAchievements (friend, regular.id)).any (·.isUnlocked)) = some false)
  obtain ⟨y, hy, hunlocked⟩ := Option.map_eq_some_iff.1 (by decide +kernel :
    (DB.withRegular.runTries [shared, other]).map
      (fun y => (y.userAchievements (friend, regular.id)).any (·.isUnlocked)) = some true)
  have h := contested_complete hx (by simp [contested, first, shared, other])
    (by simp [contested, first, shared, other])
  have h' := friend_complete hy (by simp [shared, other]) (by simp [shared, other])
  have hsame : SameProgress friend x y := hisolated _ x h friend _ y h'
  have hx' : x.Unlocked friend regular.id := (hsame.unlocked regular.id).2 hunlocked
  rw [DB.Unlocked, hlocked] at hx'
  cases hx'

end isolation

end CinemaLoyalty
