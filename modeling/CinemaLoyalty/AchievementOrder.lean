import CinemaLoyalty.AchievementRuns

/-! @svc AchievementOrder | layer:property | source:src/achievements/processors/achievements.processor.ts

    The order of the deliveries does not matter to a user. Whatever the order of a user's events,
    however often each is delivered and whichever transactions fail in between: once every event has
    been processed for every achievement it adds to, the same achievements are unlocked, the same
    rewards are paid and the locked ones stand where they stood (`processing_order_irrelevant`). -/

namespace CinemaLoyalty
open Tally

/-- The tries are of `intents` and achievements that match them. -/
def Only (db : DB) (intents : List Intent) (ts : List Try) : Prop :=
  ∀ t ∈ ts, t.intent ∈ intents ∧ t.achievement ∈ db.matchingAchievements t.intent.event.actionType

/-- A run over `intents` that processed every event for every achievement it adds to. -/
structure Complete (db : DB) (intents : List Intent) (ts : List Try) (x : DB) : Prop where
  tried : Tried db ts x
  only : Only db intents ts
  all : ∀ i ∈ intents, ∀ a ∈ db.matchingAchievements i.event.actionType,
    (a.amount? i.event).isSome = true →
      ∃ t ∈ ts, t.intent = i ∧ t.achievement = a ∧ t.commits = true

/-- The first try of a run that reached a marker. -/
def firstTry (ts : List Try) (marker : String) : Option Try :=
  (ts.filter (·.processes)).find? (·.marker = marker)

/-- The marker of an event and an achievement was first reached for the event's user. -/
def wins (ts : List Try) (a : Achievement) (i : Intent) : Bool :=
  (firstTry ts (uniqueProcessId i.event.eventId a)).any (·.intent.userId = i.userId)

/-- The event adds to the achievement. -/
def Achievement.appliesTo (a : Achievement) (i : Intent) : Bool :=
  a.matches i.event.actionType && (a.amount? i.event).isSome

/-- The events of a user that add to an achievement and were not processed for it before. -/
def DB.pending (db : DB) (intents : List Intent) (u : Uuid) (a : Achievement) : List Intent :=
  intents.filter fun i =>
    i.userId = u && a.appliesTo i && !db.seen (uniqueProcessId i.event.eventId a)

/-- The sum of what events add to an achievement. -/
def Achievement.total (a : Achievement) (events : List Intent) : ℤ :=
  (events.filterMap fun i => a.amount? i.event).sum

/-- The stored progress; nothing stored is no progress. -/
def DB.currentOf (db : DB) (u a : Uuid) : ℤ :=
  ((db.userAchievements (u, a)).map (·.current)).getD 0

/-- A user has the same in two databases: the same achievements unlocked, the same progress in the
    others, the same rewards, and the same totals. -/
structure SameProgress (u : Uuid) (x y : DB) : Prop where
  unlocked : ∀ a, x.Unlocked u a ↔ y.Unlocked u a
  current : ∀ a, ¬x.Unlocked u a → x.currentOf u a = y.currentOf u a
  rewards : ((x.earnedOf u).map fun t => (t.description, t.points)).Perm
    ((y.earnedOf u).map fun t => (t.description, t.points))
  balance : (x.profileOrDefault u).balance = (y.profileOrDefault u).balance
  lifetimePoints : (x.profileOrDefault u).lifetimePoints = (y.profileOrDefault u).lifetimePoints

/-! ### Increments and markers -/

/-- A rounded positive number is no negative integer. -/
theorem round_nonneg {x : JsNumber} {n : ℤ} (hx : x.nonpos = false)
    (h : x.round.toInt? = some n) : 0 ≤ n := by
  cases x with
  | nan => cases h
  | inf negative => cases h
  | fin q =>
    have hq : 0 < q := by simpa [JsNumber.nonpos] using hx
    have hfloor : 0 ≤ ⌊q + 1 / 2⌋ := Int.floor_nonneg.2 (by linarith)
    simp only [JsNumber.round, JsNumber.toInt?] at h
    split at h
    · rw [Option.some.injEq, Rat.num_intCast] at h
      exact h ▸ hfloor
    · cases h

/-- No event takes progress away. -/
theorem amount_nonneg {a : Achievement} {event : ActionEvent} {n : ℤ}
    (h : a.amount? event = some n) : 0 ≤ n := by
  unfold Achievement.amount? Achievement.increment? at h
  cases hc : parseAchievementCriteria a.criteria with
  | none => simp [hc] at h
  | some criteria =>
    simp only [hc, Option.bind_some] at h
    unfold calculateAchievementProgressIncrement at h
    split at h
    · have hone : n = 1 := by simpa [JsNumber.toInt?] using h.symm
      omega
    · simp only at h
      cases hv : (metadataNumber event.metadata
        (criteria.valueField.getD DEFAULT_SUM_VALUE_FIELD)).nonpos with
      | true => simp [hv] at h
      | false =>
        simp only [hv, Bool.false_eq_true, if_false, if_true, Option.bind_some] at h
        exact round_nonneg hv h

theorem actionText_inj {x y : AchievementAction} (h : x.text = y.text) : x = y := by
  cases x <;> cases y <;> first | rfl | exact absurd h (by decide)

/-- An achievement matches the events of one action only. -/
theorem matches_action {a : Achievement} {x y : AchievementAction} (hx : a.matches x = true)
    (hy : a.matches y = true) : x = y := by
  unfold Achievement.matches at hx hy
  rw [Bool.and_eq_true] at hx hy
  split at hx
  · rename_i s hs
    simp only [hs] at hy
    have hxs : s = x.text := by simpa using hx.2
    have hys : s = y.text := by simpa using hy.2
    exact actionText_inj (hxs.symm.trans hys)
  · cases hx.2

/-- A marker tells the event and the achievement, not the user. -/
theorem marker_inj {e e' : String} {a a' : Achievement}
    (h : uniqueProcessId e a = uniqueProcessId e' a') : e = e' ∧ a.id = a'.id := by
  unfold uniqueProcessId at h
  have hlist := congrArg String.toList h
  simp only [String.toList_append, List.append_assoc] at hlist
  have hlen : (("_" : String).toList ++ a.id.text.toList).length =
      (("_" : String).toList ++ a'.id.text.toList).length := by
    rw [List.length_append, List.length_append, uuid_length, uuid_length]
  obtain ⟨he, hrest⟩ := List.append_inj' hlist hlen
  have hid := List.append_cancel_left hrest
  refine ⟨String.toList_inj.1 he, ?_⟩
  have htext := String.toList_inj.1 hid
  cases ha : a.id; cases ha' : a'.id
  simp_all

/-! ### Who wins a marker -/

section complete
variable {db x y : DB} {intents : List Intent} {ts : List Try} {u : Uuid} {a : Achievement}
  {i : Intent} {t : Try}

theorem matching_mem {action : AchievementAction} (h : a ∈ db.matchingAchievements action) :
    a ∈ db.achievements ∧ a.matches action = true := List.mem_filter.1 h

/-- What a complete run leaves behind is what its tries count. -/
theorem Complete.tallied (hids : (db.achievements.map (·.id)).Nodup)
    (h : Complete db intents ts x) : Tallied db ts x :=
  tried_tallied hids h.tried fun t ht => (matching_mem (h.only t ht).2).1

/-- What counts was the first to reach its marker. -/
theorem firstTry_winner (h : t ∈ db.winners ts) : firstTry ts t.marker = some t := find_winner h

/-- The first to reach a new marker counts. -/
theorem winner_firstTry {marker : String} (h : firstTry ts marker = some t)
    (hnew : db.seen marker = false) : t ∈ db.winners ts := by
  have hmarker : t.marker = marker := by simpa using List.find?_some h
  obtain ⟨w, hw, hkey⟩ : ∃ w ∈ db.winners ts, w.marker = t.marker :=
    exists_winner (List.mem_of_find?_eq_some h) (hmarker ▸ hnew)
  have hfirst := firstTry_winner hw
  rw [hkey, hmarker, h, Option.some.injEq] at hfirst
  exact hfirst ▸ hw

/-- A try that counts for a user and achievement is about them, and about a pending event if it adds
    anything. -/
theorem winner_on (hids : (db.achievements.map (·.id)).Nodup) (honly : Only db intents ts)
    (ha : a ∈ db.achievements) (ht : t ∈ db.winners ts) (hon : t.on u a.id = true) :
    t.achievement = a ∧ (t.amount?.isSome = true →
      t.intent ∈ (db.pending intents u a).filter (wins ts a)) := by
  obtain ⟨hintent, hmatching⟩ := honly t (List.mem_filter.1 (mem_of_winner ht)).1
  obtain ⟨hmem, hmatches⟩ := matching_mem hmatching
  unfold Try.on at hon
  rw [Bool.and_eq_true, decide_eq_true_iff, decide_eq_true_iff] at hon
  obtain rfl := List.inj_on_of_nodup_map hids hmem ha hon.2
  have hunseen : db.seen t.marker = false := winner_unseen ht
  have hfirst := firstTry_winner ht
  unfold Try.marker at hunseen hfirst
  refine ⟨rfl, fun hamount => ?_⟩
  simp only [DB.pending, List.mem_filter, Bool.and_eq_true, Achievement.appliesTo, wins, hfirst]
  exact ⟨⟨hintent, by simp [hon.1, hmatches, hunseen]; exact hamount⟩, by simp⟩

/-- A pending event that won is the event of a try that counts. -/
theorem pending_winner (hids : (db.achievements.map (·.id)).Nodup)
    (hkeys : (intents.map (·.key)).Nodup) (honly : Only db intents ts)
    (ha : a ∈ db.achievements) (hi : i ∈ (db.pending intents u a).filter (wins ts a)) :
    ∃ t ∈ db.winners ts, t.on u a.id = true ∧ t.intent = i := by
  simp only [DB.pending, List.mem_filter, Bool.and_eq_true, Achievement.appliesTo, wins,
    decide_eq_true_iff, Bool.not_eq_true'] at hi
  obtain ⟨⟨hi, ⟨rfl, hmatches, -⟩, hunseen⟩, hwins⟩ := hi
  cases hfirst : firstTry ts (uniqueProcessId i.event.eventId a) with
  | none => simp [hfirst] at hwins
  | some t =>
    have huser : t.intent.userId = i.userId := by simpa [hfirst] using hwins
    have hmarker : t.marker = uniqueProcessId i.event.eventId a := by
      simpa using List.find?_some hfirst
    have ht := winner_firstTry hfirst hunseen
    obtain ⟨hintent, hmatching⟩ := honly t (List.mem_filter.1 (mem_of_winner ht)).1
    obtain ⟨hmem, htmatches⟩ := matching_mem hmatching
    obtain ⟨hevent, hid⟩ := marker_inj hmarker
    obtain rfl := List.inj_on_of_nodup_map hids hmem ha hid
    have hkey : t.intent.key = i.key := by
      unfold Intent.key
      rw [huser, hevent, matches_action htmatches hmatches]
    exact ⟨t, ht, by simp [Try.on, huser], List.inj_on_of_nodup_map hkeys hintent hi hkey⟩

/-- The amounts that count for a user and achievement are those of its pending events that won. -/
theorem counts_perm (hids : (db.achievements.map (·.id)).Nodup)
    (hkeys : (intents.map (·.key)).Nodup) (honly : Only db intents ts)
    (ha : a ∈ db.achievements) : (db.counts ts u a.id).Perm
      (((db.pending intents u a).filter (wins ts a)).filterMap fun i => a.amount? i.event) := by
  let W := ((db.winners ts).filter (Try.on u a.id)).filter (·.amount?.isSome)
  have hW : ∀ t, t ∈ W ↔ t ∈ db.winners ts ∧ t.on u a.id = true ∧ t.amount?.isSome = true := by
    intro t
    rw [List.mem_filter, List.mem_filter, and_assoc]
  have hcounts : db.counts ts u a.id = W.filterMap (·.amount?) := by
    unfold DB.counts
    refine Eq.trans (List.filterMap_congr fun t _ => ?_) List.filterMap_filter.symm
    cases t.amount? <;> rfl
  have hmap : W.filterMap (·.amount?) =
      (W.map (·.intent)).filterMap fun i => a.amount? i.event := by
    rw [List.filterMap_map]
    refine List.filterMap_congr fun t ht => ?_
    obtain ⟨hwin, hon, -⟩ := (hW t).1 ht
    obtain rfl := (winner_on hids honly ha hwin hon).1
    rfl
  rw [hcounts, hmap]
  refine List.Perm.filterMap _ ((List.perm_ext_iff_of_nodup ?_ ?_).2 fun i => ?_)
  · -- two tries about one event and one achievement have one marker
    rw [List.Nodup, List.pairwise_map]
    refine ((winners_pairwise.filter _).filter _).imp_of_mem fun hs ht hne hintent => hne ?_
    obtain ⟨hswin, hson, -⟩ := (hW _).1 hs
    obtain ⟨htwin, hton, -⟩ := (hW _).1 ht
    unfold Try.marker
    rw [hintent, (winner_on hids honly ha hswin hson).1, (winner_on hids honly ha htwin hton).1]
  · exact ((hkeys.of_map _).filter _).filter _
  · rw [List.mem_map]
    constructor
    · rintro ⟨t, ht, rfl⟩
      obtain ⟨hwin, hon, hamount⟩ := (hW t).1 ht
      exact (winner_on hids honly ha hwin hon).2 hamount
    · intro hi
      obtain ⟨t, hwin, hon, rfl⟩ := pending_winner hids hkeys honly ha hi
      have hamount : t.amount?.isSome = true := by
        obtain rfl := (winner_on hids honly ha hwin hon).1
        simp only [DB.pending, List.mem_filter, Bool.and_eq_true, Achievement.appliesTo] at hi
        exact hi.1.2.1.2.2
      exact ⟨t, (hW t).2 ⟨hwin, hon, hamount⟩, rfl⟩

/-- A complete run reached the marker of every pending event, first for an event of the same id and
    action. -/
theorem pending_first (hids : (db.achievements.map (·.id)).Nodup) (h : Complete db intents ts x)
    (ha : a ∈ db.achievements) (hi : i ∈ db.pending intents u a) : ∃ s ∈ ts,
      firstTry ts (uniqueProcessId i.event.eventId a) = some s ∧
        s.intent.event.eventId = i.event.eventId ∧
          s.intent.event.actionType = i.event.actionType := by
  simp only [DB.pending, List.mem_filter, Bool.and_eq_true, Achievement.appliesTo] at hi
  obtain ⟨hi, ⟨-, hmatches, hamount⟩, -⟩ := hi
  obtain ⟨t, ht, rfl, rfl, hc⟩ := h.all i hi a (List.mem_filter.2 ⟨ha, hmatches⟩) hamount
  have hprocesses : t.processes = true := by
    unfold Achievement.amount? at hamount
    unfold Try.processes
    rw [hc]
    cases hinc : t.achievement.increment? t.intent.event with
    | none => simp [hinc] at hamount
    | some inc => rfl
  have hsome : (firstTry ts t.marker).isSome = true :=
    List.find?_isSome.2 ⟨t, List.mem_filter.2 ⟨ht, hprocesses⟩, by simp⟩
  obtain ⟨s, hs⟩ := Option.isSome_iff_exists.1 hsome
  have hmarker : s.marker = t.marker := by simpa using List.find?_some hs
  obtain ⟨hevent, hid⟩ := marker_inj hmarker
  have hmem := (List.mem_filter.1 (List.mem_of_find?_eq_some hs)).1
  obtain ⟨hsmem, hsmatches⟩ := matching_mem (h.only s hmem).2
  rw [List.inj_on_of_nodup_map hids hsmem ha hid] at hsmatches
  exact ⟨s, hmem, hs, hevent, matches_action hsmatches hmatches⟩

/-- When all events are one user's, every pending event wins. -/
theorem counts_alone (hids : (db.achievements.map (·.id)).Nodup)
    (hkeys : (intents.map (·.key)).Nodup) (huser : ∀ i ∈ intents, i.userId = u)
    (h : Complete db intents ts x) (ha : a ∈ db.achievements) :
    (db.counts ts u a.id).Perm ((db.pending intents u a).filterMap fun i => a.amount? i.event) := by
  have hwins : ∀ i ∈ db.pending intents u a, wins ts a i = true := by
    intro i hi
    obtain ⟨s, hmem, hs, -⟩ := pending_first hids h ha hi
    unfold wins
    rw [hs, Option.any_some, huser _ (h.only s hmem).1, huser i (List.mem_filter.1 hi).1,
      decide_eq_true rfl]
  have hperm := counts_perm hids hkeys h.only ha (u := u)
  rwa [List.filter_eq_self.2 hwins] at hperm

theorem counts_nonneg {b : Uuid} {n : ℤ} (h : n ∈ db.counts ts u b) : 0 ≤ n := by
  obtain ⟨t, -, ht⟩ := List.mem_filterMap.1 h
  exact amount_nonneg ht

end complete

/-! ### The same for a user -/

section same
variable {db x y : DB} {ts ts' : List Try} {u : Uuid} {a : Achievement}

theorem meter_locked {b : Uuid} (h : ¬x.Unlocked u b) :
    x.meter u b = .locked (x.currentOf u b) := by
  unfold DB.Unlocked at h
  unfold DB.meter DB.currentOf
  cases hrow : x.userAchievements (u, b) with
  | none => rfl
  | some row =>
    have hopen : row.isUnlocked = false := by simpa [hrow] using h
    simp [hopen]

theorem meter_eq_iff {b : Uuid} : x.meter u b = y.meter u b ↔
    (x.Unlocked u b ↔ y.Unlocked u b) ∧ (¬x.Unlocked u b → x.currentOf u b = y.currentOf u b) := by
  constructor
  · intro h
    have hiff : x.Unlocked u b ↔ y.Unlocked u b := by rw [← meter_unlocked, ← meter_unlocked, h]
    refine ⟨hiff, fun hx => ?_⟩
    rw [meter_locked hx, meter_locked (mt hiff.2 hx)] at h
    exact Meter.locked.inj h
  · rintro ⟨hiff, hcurrent⟩
    by_cases hx : x.Unlocked u b
    · rw [meter_unlocked.2 hx, meter_unlocked.2 (hiff.1 hx)]
    · rw [meter_locked hx, meter_locked (mt hiff.2 hx), hcurrent hx]

/-- What payments add up to. -/
theorem pay_fold (p : Purse) (paid : List Achievement) :
    (paid.foldl Purse.pay p).rows =
        p.rows ++ paid.map (fun a => ("Unlocked achievement: " ++ a.name, a.rewardPoints)) ∧
      (paid.foldl Purse.pay p).balance = p.balance + (paid.map (·.rewardPoints)).sum ∧
      (paid.foldl Purse.pay p).lifetimePoints =
        p.lifetimePoints + (paid.map (·.rewardPoints)).sum := by
  induction paid generalizing p with
  | nil => simp
  | cons a paid ih =>
    obtain ⟨hrows, hbalance, hlifetime⟩ := ih (p.pay a)
    rw [List.foldl_cons, hrows, hbalance, hlifetime, List.map_cons, List.map_cons, List.sum_cons]
    exact ⟨by simp [Purse.pay], add_assoc .., add_assoc ..⟩

/-- A user has the same after two runs exactly when the meters of the definitions agree. -/
theorem same_iff_meters (hx : Tallied db ts x) (hy : Tallied db ts' y) :
    SameProgress u x y ↔ ∀ a ∈ db.achievements, x.meter u a.id = y.meter u a.id := by
  constructor
  · exact fun h a _ => meter_eq_iff.2 ⟨h.unlocked a.id, h.current a.id⟩
  · intro h
    have hall : ∀ b, x.meter u b = y.meter u b := by
      intro b
      by_cases hb : ∃ a ∈ db.achievements, a.id = b
      · obtain ⟨a, ha, rfl⟩ := hb
        exact h a ha
      · simp only [not_exists, not_and] at hb
        exact meter_congr ((hx.others u b hb).trans (hy.others u b hb).symm)
    have hunlocked : ∀ b, x.Unlocked u b ↔ y.Unlocked u b := fun b => (meter_eq_iff.1 (hall b)).1
    obtain ⟨paid, hpaid⟩ := hx.paid u
    obtain ⟨paid', hpaid'⟩ := hy.paid u
    have hperm : paid.Perm paid' := (List.perm_ext_iff_of_nodup hpaid.nodup hpaid'.nodup).2
      fun a => by rw [hpaid.mem, hpaid'.mem, hunlocked]
    obtain ⟨hrows, hbalance, hlifetime⟩ := pay_fold (db.purse u) paid
    obtain ⟨hrows', hbalance', hlifetime'⟩ := pay_fold (db.purse u) paid'
    rw [← hpaid.purse] at hrows hbalance hlifetime
    rw [← hpaid'.purse] at hrows' hbalance' hlifetime'
    have hsum : (paid.map (·.rewardPoints)).sum = (paid'.map (·.rewardPoints)).sum :=
      (hperm.map _).sum_eq
    refine ⟨hunlocked, fun b => (meter_eq_iff.1 (hall b)).2, ?_, ?_, ?_⟩
    · have hboth : (x.purse u).rows.Perm (y.purse u).rows := by
        rw [hrows, hrows']
        exact (hperm.map _).append_left _
      exact hboth
    · exact hbalance.trans (hsum ▸ hbalance'.symm)
    · exact hlifetime.trans (hsum ▸ hlifetime'.symm)

end same

/-! ### Any order -/

section order
variable {db x y : DB} {intents : List Intent} {ts ts' : List Try} {u : Uuid}

/-- No progress of the user, and no event processed before. -/
structure Fresh (db : DB) (u : Uuid) (intents : List Intent) : Prop where
  progress : ∀ a ∈ db.achievements, db.userAchievements (u, a.id) = none
  markers : ∀ i ∈ intents, ∀ a ∈ db.achievements,
    db.processedEvents (uniqueProcessId i.event.eventId a) = none

/-- From a fresh start an achievement ends unlocked exactly when an event applies to it and the
    increments reach its target. -/
theorem fresh_unlocked {a : Achievement} (hids : (db.achievements.map (·.id)).Nodup)
    (hkeys : (intents.map (·.key)).Nodup) (huser : ∀ i ∈ intents, i.userId = u)
    (hfresh : Fresh db u intents) (h : Complete db intents ts x) (ha : a ∈ db.achievements) :
    x.Unlocked u a.id ↔
      (∃ i ∈ intents, a.appliesTo i = true) ∧ a.target ≤ a.total (intents.filter a.appliesTo) := by
  have hpending : db.pending intents u a = intents.filter a.appliesTo := by
    refine List.filter_congr fun i hi => ?_
    simp [huser i hi, DB.seen, hfresh.markers i hi a ha]
  have hmeter : db.meter u a.id = .locked 0 := by
    unfold DB.meter
    rw [hfresh.progress a ha]
  have hperm := counts_alone hids hkeys huser h ha
  rw [hpending] at hperm
  have hnil : db.counts ts u a.id = [] ↔ ¬∃ i ∈ intents, a.appliesTo i = true := by
    rw [← List.length_eq_zero_iff, hperm.length_eq, List.length_eq_zero_iff,
      List.filterMap_eq_nil_iff]
    constructor
    · rintro hnone ⟨i, hi, happlies⟩
      have hamount := hnone i (List.mem_filter.2 ⟨hi, happlies⟩)
      simp [Achievement.appliesTo, hamount] at happlies
    · intro hno i hi
      exact absurd ⟨i, List.mem_filter.1 hi⟩ hno
  rw [← meter_unlocked, (h.tallied hids).meter u a ha, hmeter,
    run_locked_unlocked fun n hn => counts_nonneg hn, Reaches, hperm.sum_eq, zero_add, ne_eq, hnil,
    not_not]
  rfl

/-- The order of the events, repeated deliveries and failed transactions do not matter: two runs of
    one user's events from one database, in each of which every event was processed for every
    achievement it adds to, end with the same unlocked achievements, rewards, balance and lifetime
    points, and the same progress in what is locked. From a fresh start an achievement ends unlocked
    exactly when an event applies to it and the increments of its events reach its target. -/
theorem processing_order_irrelevant (hids : (db.achievements.map (·.id)).Nodup)
    (huser : ∀ i ∈ intents, i.userId = u) (hevents : (intents.map (·.event.eventId)).Nodup)
    (h : Complete db intents ts x) (h' : Complete db intents ts' y) :
    SameProgress u x y ∧ (Fresh db u intents → ∀ a ∈ db.achievements,
      (x.Unlocked u a.id ↔ (∃ i ∈ intents, a.appliesTo i = true) ∧
        a.target ≤ a.total (intents.filter a.appliesTo))) := by
  have hkeys : (intents.map (·.key)).Nodup :=
    List.Nodup.of_map (fun k => k.2.1) (by rw [List.map_map]; exact hevents)
  have hx := h.tallied hids
  have hy := h'.tallied hids
  refine ⟨(same_iff_meters hx hy).2 fun a ha => ?_,
    fun hfresh a ha => fresh_unlocked hids hkeys huser hfresh h ha⟩
  rw [hx.meter u a ha, hy.meter u a ha]
  have hperm := counts_alone hids hkeys huser h ha
  have hperm' := counts_alone hids hkeys huser h' ha
  exact run_perm (hperm.trans hperm'.symm) fun n hn => counts_nonneg hn

/-- Fifty points for two purchases. -/
def regular : Achievement where
  id := Uuid.nil
  code := "REGULAR"
  name := "Regular"
  criteria := .obj
    [("field", .str "TICKET_PURCHASED"), ("operator", .str "gte"), ("target", .num 2)]
  rewardPoints := 50

def DB.withRegular : DB := { DB.empty with achievements := [regular] }

def firstPurchase : Intent where
  event := { eventId := "1", userId := Uuid.nil.text, actionType := .TICKET_PURCHASED }
  userId := Uuid.nil
  valid := rfl
  named := rfl

def secondPurchase : Intent where
  event := { eventId := "2", userId := Uuid.nil.text, actionType := .TICKET_PURCHASED }
  userId := Uuid.nil
  valid := rfl
  named := rfl

/-- A run over a set of intents in which each was processed for the one achievement is complete. -/
theorem regular_complete (h : DB.withRegular.runTries ts = some x)
    (hts : ∀ t ∈ ts, t.intent ∈ intents ∧ t.achievement = regular)
    (haction : ∀ i ∈ intents, i.event.actionType = .TICKET_PURCHASED)
    (hall : ∀ i ∈ intents, ∃ t ∈ ts, t.intent = i ∧ t.achievement = regular ∧ t.commits = true) :
    Complete DB.withRegular intents ts x where
  tried := runTries_tried h
  only t ht := by
    obtain ⟨hi, ha⟩ := hts t ht
    rw [haction _ hi, ha]
    exact ⟨hi, List.mem_singleton_self _⟩
  all i hi a ha _ := by
    rw [haction i hi] at ha
    obtain rfl := List.mem_singleton.1 ha
    exact hall i hi

/-- The second purchase fails once and follows the first; or it comes first and once more later. -/
theorem processing_order_irrelevant_two :
    ∃ ts ts' x y, Complete DB.withRegular [firstPurchase, secondPurchase] ts x ∧
      Complete DB.withRegular [firstPurchase, secondPurchase] ts' y ∧ SameProgress Uuid.nil x y ∧
        x.Unlocked Uuid.nil regular.id := by
  let first : Try := ⟨firstPurchase, regular, 0, true⟩
  let second : Try := ⟨secondPurchase, regular, 0, true⟩
  obtain ⟨x, h⟩ := Option.isSome_iff_exists.1 (by decide +kernel :
    (DB.withRegular.runTries [first, { second with commits := false }, second]).isSome = true)
  obtain ⟨y, h'⟩ := Option.isSome_iff_exists.1 (by decide +kernel :
    (DB.withRegular.runTries [second, first, second]).isSome = true)
  have haction : ∀ i ∈ [firstPurchase, secondPurchase],
      i.event.actionType = .TICKET_PURCHASED := by simp [firstPurchase, secondPurchase]
  have hc : Complete DB.withRegular [firstPurchase, secondPurchase] _ x :=
    regular_complete h (by simp [first, second]) haction (by simp [first, second])
  have hc' : Complete DB.withRegular [firstPurchase, secondPurchase] _ y :=
    regular_complete h' (by simp [first, second]) haction (by simp [first, second])
  obtain ⟨hsame, hunlocked⟩ := processing_order_irrelevant (u := Uuid.nil) (by decide)
    (by simp [firstPurchase, secondPurchase]) (by decide) hc hc'
  have hfresh : Fresh DB.withRegular Uuid.nil [firstPurchase, secondPurchase] :=
    ⟨fun _ _ => rfl, fun _ _ _ _ => rfl⟩
  refine ⟨_, _, _, _, hc, hc', hsame, (hunlocked hfresh regular (List.mem_singleton_self _)).2 ?_⟩
  exact ⟨⟨firstPurchase, List.mem_cons_self, rfl⟩, by decide⟩

end order

end CinemaLoyalty
