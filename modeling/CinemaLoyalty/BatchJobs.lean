import CinemaLoyalty.Dates
import CinemaLoyalty.Jobs

/-! @svc BatchJobs | layer:property | source:src/loyalty/loyalty-expiration.service.ts, test/integration/profile-batches.integration-spec.ts

    The batch jobs without concurrent writers. Each job is keyset work (`batch_works`): a profile it
    settles leaves the filter and decides nothing about the others. So a run of any job over any
    table ends, settles every profile of its filter once and touches nothing else, and a second run
    finds nothing to do. -/

namespace CinemaLoyalty
open Txn Keyset

/-- The jobs; `goldReset` with the clock readings of its transactions. -/
inductive BatchJob
  | expirePoints
  | resetAnnualStats
  | goldReset (clock : ProfileKey → Instant)
  | notifyExpiringUsers

namespace BatchJob

/-- A run of a job. -/
def run (rows : List ProfileKey) (batchSize : ℕ) (now : Instant) (fuel : ℕ) (s : JobState) :
    BatchJob → BatchResult
  | expirePoints => CinemaLoyalty.expirePoints rows batchSize now fuel s
  | resetAnnualStats => CinemaLoyalty.resetAnnualStats rows batchSize fuel s
  | goldReset clock => CinemaLoyalty.goldReset rows batchSize now fuel s clock
  | notifyExpiringUsers => CinemaLoyalty.notifyExpiringUsers rows batchSize now fuel s

/-- The filter of a job. -/
def filter (now : Instant) : BatchJob → LoyaltyProfile → Bool
  | expirePoints => isExpired now
  | resetAnnualStats => hasAnnualStats
  | goldReset _ => usedBefore (getUtcMonthKey now)
  | notifyExpiringUsers => isExpiring now

/-- The columns a job owns, as it leaves them. -/
def update (now : Instant) : BatchJob → LoyaltyProfile → LoyaltyProfile
  | expirePoints, p => { p with balance := 0 }
  | resetAnnualStats, p => { p with yearPoints := 0, yearVisits := 0 }
  | goldReset _, p => { p with goldUpgradeUsedMonth := none }
  | notifyExpiringUsers, p => { p with lastExpiryNotificationAt := some now }

/-- The ledger rows a job writes about a profile. -/
def entries (now : Instant) : BatchJob → Uuid → LoyaltyProfile → List PointsTransaction
  | expirePoints, userId, p => [expireRow userId p.balance now]
  | _, _, _ => []

/-- The messages a job emits about a profile. -/
def messages : BatchJob → Uuid → LoyaltyProfile → List PointsExpiring
  | notifyExpiringUsers, userId, p => [pointsExpiring userId p]
  | _, _, _ => []

/-- The clock does not run backwards after the start of a job. -/
def Follows (now : Instant) : BatchJob → Prop
  | goldReset clock => ∀ row, now ≤ clock row
  | _ => True

/-- The state with the profiles of `batch` settled. -/
def settle (job : BatchJob) (now : Instant) (s : JobState) (batch : List ProfileKey) : JobState where
  db :=
    { s.db with
      profiles := fun userId =>
        if userId ∈ batch.map (·.userId) then (s.db.profiles userId).map (job.update now)
        else s.db.profiles userId
      pointsTransactions := s.db.pointsTransactions ++ batch.flatMap fun row =>
        (s.db.profiles row.userId).toList.flatMap fun p =>
          (job.entries now row.userId p).map s.db.numbered }
  emitted := s.emitted ++ batch.flatMap fun row =>
    (s.db.profiles row.userId).toList.flatMap (job.messages row.userId)

end BatchJob

section settling
variable {job : BatchJob} {now : Instant} {s : JobState} {row : ProfileKey} {batch : List ProfileKey}

theorem entries_userId {u : Uuid} {p : LoyaltyProfile} {t : PointsTransaction}
    (h : t ∈ job.entries now u p) : t.userId = u := by
  cases job with
  | expirePoints =>
    rw [List.mem_singleton.1 h]
    rfl
  | resetAnnualStats => cases h
  | goldReset clock => cases h
  | notifyExpiringUsers => cases h

@[simp] theorem settle_nil : job.settle now s [] = s := by
  simp [BatchJob.settle]

theorem settle_profiles (u : Uuid) : (job.settle now s batch).db.profiles u =
    if u ∈ batch.map (·.userId) then (s.db.profiles u).map (job.update now)
    else s.db.profiles u := rfl

theorem settle_one_profiles (u : Uuid) : (job.settle now s [row]).db.profiles u =
    if u = row.userId then (s.db.profiles u).map (job.update now) else s.db.profiles u := by
  simp [settle_profiles]

/-- Settling a profile leaves the ledgers of the others. -/
theorem settle_ledgerOf {u : Uuid} (h : u ≠ row.userId) :
    (job.settle now s [row]).db.ledgerOf u = s.db.ledgerOf u := by
  unfold DB.ledgerOf BatchJob.settle
  simp only [List.flatMap_cons, List.flatMap_nil, List.append_nil, List.filter_append]
  rw [List.append_right_eq_self, List.filter_eq_nil_iff]
  intro t ht
  obtain ⟨p, -, ht⟩ := List.mem_flatMap.1 ht
  obtain ⟨t', ht', rfl⟩ := List.mem_map.1 ht
  rw [numbered_userId, entries_userId ht', decide_eq_true_eq]
  exact h.symm

/-- What settling a profile leaves of the others: the profile, and the number of its next entry. -/
theorem settle_one_other {r : ProfileKey} (h : r.userId ≠ row.userId) :
    (job.settle now s [row]).db.profiles r.userId = s.db.profiles r.userId := by
  rw [settle_one_profiles, if_neg h]

theorem settle_one_numbered {r : ProfileKey} (h : r.userId ≠ row.userId) {p : LoyaltyProfile}
    {t : PointsTransaction} (ht : t ∈ job.entries now r.userId p) :
    (job.settle now s [row]).db.numbered t = s.db.numbered t := by
  unfold DB.numbered
  rw [entries_userId ht, settle_ledgerOf h]

theorem settle_cons_profiles (hnew : row.userId ∉ batch.map (·.userId)) :
    (job.settle now (job.settle now s [row]) batch).db.profiles =
      (job.settle now s (row :: batch)).db.profiles := by
  funext u
  rw [settle_profiles, settle_one_profiles, settle_profiles]
  by_cases hu : u = row.userId
  · rw [if_neg (hu ▸ hnew), if_pos hu, if_pos (by simp [hu])]
  · simp [hu]

theorem settle_cons_ledger (hother : ∀ r ∈ batch, r.userId ≠ row.userId) :
    (job.settle now (job.settle now s [row]) batch).db.pointsTransactions =
      (job.settle now s (row :: batch)).db.pointsTransactions := by
  have hentries : (batch.flatMap fun r => ((job.settle now s [row]).db.profiles r.userId).toList.flatMap
      fun p => (job.entries now r.userId p).map (job.settle now s [row]).db.numbered) =
      batch.flatMap fun r => (s.db.profiles r.userId).toList.flatMap
        fun p => (job.entries now r.userId p).map s.db.numbered :=
    List.flatMap_congr fun r hr => by
      rw [settle_one_other (hother r hr)]
      exact List.flatMap_congr fun p _ =>
        List.map_congr_left fun t ht => settle_one_numbered (hother r hr) ht
  refine (congrArg ((job.settle now s [row]).db.pointsTransactions ++ ·) hentries).trans ?_
  simp [BatchJob.settle]

theorem settle_cons_emitted (hother : ∀ r ∈ batch, r.userId ≠ row.userId) :
    (job.settle now (job.settle now s [row]) batch).emitted =
      (job.settle now s (row :: batch)).emitted := by
  have hmessages : (batch.flatMap fun r =>
      ((job.settle now s [row]).db.profiles r.userId).toList.flatMap (job.messages r.userId)) =
      batch.flatMap fun r => (s.db.profiles r.userId).toList.flatMap (job.messages r.userId) :=
    List.flatMap_congr fun r hr => by rw [settle_one_other (hother r hr)]
  refine (congrArg ((job.settle now s [row]).emitted ++ ·) hmessages).trans ?_
  simp [BatchJob.settle]

/-- A batch is settled row by row. -/
theorem settle_cons (hnew : row.userId ∉ batch.map (·.userId)) :
    job.settle now (job.settle now s [row]) batch = job.settle now s (row :: batch) := by
  have hother : ∀ r ∈ batch, r.userId ≠ row.userId := fun r hr h =>
    hnew (h ▸ List.mem_map_of_mem hr)
  have hstate : ∀ rs, ∀ s' : JobState, s'.db.profiles = (job.settle now s rs).db.profiles →
      s'.db.pointsTransactions = (job.settle now s rs).db.pointsTransactions →
      s'.emitted = (job.settle now s rs).emitted →
      { db := { s.db with
          profiles := s'.db.profiles, pointsTransactions := s'.db.pointsTransactions },
        emitted := s'.emitted } = job.settle now s rs := by
    intro rs s' hprofiles hledger hemitted
    rw [hprofiles, hledger, hemitted]
    rfl
  exact hstate _ _ (settle_cons_profiles hnew) (settle_cons_ledger hother) (settle_cons_emitted hother)

end settling

/-! ### The work on a batch -/

/-- Every profile fits its columns. -/
def DB.InRange (db : DB) : Prop := ∀ u p, db.profiles u = some p → p.inRange = true

/-- The rows are those of the profile table: ids and users are distinct. -/
structure DB.Lists (db : DB) (rows : List ProfileKey) : Prop where
  ids : (rows.map (·.id)).Nodup
  users : (rows.map (·.userId)).Nodup
  listed : ∀ u, (db.profiles u).isSome = true ↔ u ∈ rows.map (·.userId)

/-- What a job does with a batch. -/
def BatchJob.work (rows : List ProfileKey) (now : Instant) :
    BatchJob → JobState → List ProfileKey → Except JobError JobState
  | .expirePoints => eachRow fun candidate => expirePointsStep candidate.userId now
  | .resetAnnualStats => eachRow fun profile => resetAnnualStatsStep profile.userId
  | .goldReset clock => eachRow fun profile => goldResetStep profile.userId (clock profile)
  | .notifyExpiringUsers => notifyBatch rows now

theorem run_eq (job : BatchJob) (rows : List ProfileKey) (batchSize : ℕ) (now : Instant) (fuel : ℕ)
    (s : JobState) : job.run rows batchSize now fuel s =
      Keyset.job ProfileKey.id rows batchSize (JobState.selects (job.filter now))
        (job.work rows now) fuel s none := by
  cases job <;> rfl

section work
variable {job : BatchJob} {now : Instant} {s : JobState} {row : ProfileKey}
  {rows batch : List ProfileKey}

/-- A selected row has its profile. -/
theorem selects_profile {cond : LoyaltyProfile → Bool} (h : s.selects cond row = true) :
    ∃ p, s.db.profiles row.userId = some p ∧ cond p = true := by
  unfold JobState.selects at h
  cases hp : s.db.profiles row.userId with
  | none => rw [hp] at h; cases h
  | some p => rw [hp] at h; exact ⟨p, rfl, h⟩

/-- A job leaves a profile in the range of its columns. -/
theorem update_inRange {p : LoyaltyProfile} (h : p.inRange = true) :
    (job.update now p).inRange = true := by
  simp only [LoyaltyProfile.inRange, Bool.and_eq_true] at h
  obtain ⟨⟨⟨hb, hl⟩, hy⟩, hv⟩ := h
  have hzero : isInt32 0 = true := rfl
  cases job <;> simp [BatchJob.update, LoyaltyProfile.inRange, hb, hl, hy, hv, hzero]

theorem settle_inRange (h : s.db.InRange) : (job.settle now s batch).db.InRange := by
  intro u p hp
  rw [settle_profiles] at hp
  split at hp
  · obtain ⟨q, hq, rfl⟩ := Option.map_eq_some_iff.1 hp
    exact update_inRange (h u q hq)
  · exact h u p hp

/-- Settling a profile decides nothing about the others. -/
theorem settle_others {row' : ProfileKey} {cond : LoyaltyProfile → Bool}
    (h : row'.userId ≠ row.userId) :
    (job.settle now s [row]).selects cond row' = s.selects cond row' := by
  unfold JobState.selects
  rw [settle_one_profiles, if_neg h]

/-- Transactions that each settle their profile settle the batch, one after the other. -/
theorem eachRow_settles {α : Type} {step : ProfileKey → Tx α}
    (hstep : ∀ {s : JobState} {row p}, s.db.profiles row.userId = some p → p.inRange = true →
      job.filter now p = true → ∃ a, s.db.run (step row) = .ok (a, (job.settle now s [row]).db))
    (hquiet : ∀ s row, (job.settle now s [row]).emitted = s.emitted)
    {batch : List ProfileKey} {s : JobState} (hr : s.db.InRange) (hnd : (batch.map (·.userId)).Nodup)
    (hmatch : ∀ r ∈ batch, s.selects (job.filter now) r = true) :
    eachRow step s batch = .ok (batch.foldl (fun s r => job.settle now s [r]) s) := by
  induction batch generalizing s with
  | nil => rfl
  | cons row batch ih =>
    obtain ⟨hnew, hnd'⟩ := List.nodup_cons.1 hnd
    obtain ⟨p, hp, hf⟩ := selects_profile (hmatch row (List.mem_cons_self ..))
    obtain ⟨a, hrun⟩ := hstep hp (hr _ _ hp) hf
    have hcommit := transaction_commits hrun
    have hmatch' : ∀ r ∈ batch, (job.settle now s [row]).selects (job.filter now) r = true := by
      intro r hr'
      rw [settle_others fun h => hnew (List.mem_map.2 ⟨r, hr', h⟩)]
      exact hmatch r (List.mem_cons_of_mem _ hr')
    have hrest := ih (settle_inRange hr) hnd' hmatch'
    have hstate : ({ s with db := (job.settle now s [row]).db } : JobState) =
        job.settle now s [row] := by
      rw [← hquiet s row]
    unfold eachRow at hrest ⊢
    rw [List.foldlM_cons, hcommit, List.foldl_cons, ← hrest, ← hstate]
    rfl

/-- One profile settled, as the transactions leave the database. -/
theorem settle_one_db {p : LoyaltyProfile} (hp : s.db.profiles row.userId = some p) :
    (job.settle now s [row]).db =
      { s.db.apply (.updateProfile row.userId (job.update now p)) with
        pointsTransactions := s.db.pointsTransactions ++
          (job.entries now row.userId p).map s.db.numbered } := by
  have hprofiles : (job.settle now s [row]).db.profiles =
      (s.db.apply (.updateProfile row.userId (job.update now p))).profiles := by
    funext u
    rw [settle_one_profiles, profiles_updateProfile]
    by_cases hu : u = row.userId
    · rw [if_pos hu, if_pos hu, hu, hp]
      rfl
    · rw [if_neg hu, if_neg hu]
  have hentries : (job.settle now s [row]).db.pointsTransactions = s.db.pointsTransactions ++
      (job.entries now row.userId p).map s.db.numbered := by
    simp [BatchJob.settle, hp]
  rw [← hentries]
  unfold DB.apply at hprofiles ⊢
  simp only at hprofiles ⊢
  rw [← hprofiles]
  rfl

theorem expire_settles {p : LoyaltyProfile} (hp : s.db.profiles row.userId = some p)
    (hr : p.inRange = true) (hf : BatchJob.expirePoints.filter now p = true) :
    ∃ a, s.db.run (expirePointsStep row.userId now) =
      .ok (a, (BatchJob.expirePoints.settle now s [row]).db) := by
  have hf' : 0 < p.balance ∧ p.balanceExpiresAt.any (fun t => decide (t ≤ now)) = true := by
    simpa only [BatchJob.filter, isExpired, Bool.and_eq_true, decide_eq_true_eq] using hf
  have hdb : (s.db.apply (.updateProfile row.userId { p with balance := 0 })).post
      (expireRow row.userId p.balance now) = (BatchJob.expirePoints.settle now s [row]).db := by
    rw [settle_one_db hp]
    rfl
  exact ⟨true, hdb ▸ run_expirePointsStep hp hr hf'.1 hf'.2⟩

theorem annual_settles {p : LoyaltyProfile} (hp : s.db.profiles row.userId = some p)
    (hr : p.inRange = true) : ∃ a, s.db.run (resetAnnualStatsStep row.userId) =
      .ok (a, (BatchJob.resetAnnualStats.settle now s [row]).db) := by
  have hdb : s.db.apply (.updateProfile row.userId { p with yearPoints := 0, yearVisits := 0 }) =
      (BatchJob.resetAnnualStats.settle now s [row]).db := by
    rw [settle_one_db hp]
    simp only [BatchJob.entries, List.map_nil, List.append_nil]
    rfl
  exact ⟨(), hdb ▸ run_resetAnnualStatsStep hp hr⟩

theorem gold_settles {clock : ProfileKey → Instant} {p : LoyaltyProfile}
    (hp : s.db.profiles row.userId = some p) (hr : p.inRange = true)
    (hf : (BatchJob.goldReset clock).filter now p = true) (hclock : now ≤ clock row) :
    ∃ a, s.db.run (goldResetStep row.userId (clock row)) =
      .ok (a, ((BatchJob.goldReset clock).settle now s [row]).db) := by
  have hdue : p.goldUpgradeUsedMonth.any (·.before (getUtcMonthKey (clock row))) = true := by
    obtain ⟨month, hmonth, hb⟩ := (Option.any_eq_true _ _).1 hf
    exact (Option.any_eq_true _ _).2 ⟨month, hmonth, before_mono hclock hb⟩
  have hdb : s.db.apply (.updateProfile row.userId { p with goldUpgradeUsedMonth := none }) =
      ((BatchJob.goldReset clock).settle now s [row]).db := by
    rw [settle_one_db hp]
    simp only [BatchJob.entries, List.map_nil, List.append_nil]
    rfl
  exact ⟨1, hdb ▸ run_goldResetStep hp hr hdue⟩

theorem foldl_settle {batch : List ProfileKey} {s : JobState} (hnd : (batch.map (·.userId)).Nodup) :
    batch.foldl (fun s r => job.settle now s [r]) s = job.settle now s batch := by
  induction batch generalizing s with
  | nil => exact settle_nil.symm
  | cons row batch ih =>
    obtain ⟨hnew, hnd'⟩ := List.nodup_cons.1 hnd
    rw [List.foldl_cons, ih hnd', settle_cons hnew]

/-- The rows of the ids of a batch are the batch. -/
theorem any_batch (hids : (rows.map (·.id)).Nodup) (hsub : ∀ r ∈ batch, r ∈ rows) (u : Uuid) :
    (rows.any fun r => decide (r.userId = u) && decide (r.id ∈ batch.map (·.id))) =
      decide (u ∈ batch.map (·.userId)) := by
  rw [Bool.eq_iff_iff, List.any_eq_true, decide_eq_true_eq, List.mem_map]
  constructor
  · rintro ⟨r, hr, h⟩
    simp only [Bool.and_eq_true, decide_eq_true_eq, List.mem_map] at h
    obtain ⟨hu, r', hr', hid⟩ := h
    obtain rfl := List.inj_on_of_nodup_map hids (hsub r' hr') hr hid
    exact ⟨r', hr', hu⟩
  · rintro ⟨r, hr, rfl⟩
    refine ⟨r, hsub r hr, ?_⟩
    simp only [Bool.and_eq_true, decide_eq_true_eq, true_and]
    exact List.mem_map_of_mem hr

/-- Marking a batch and then emitting settles it. -/
theorem notifyBatch_settles (hids : (rows.map (·.id)).Nodup) (hsub : ∀ r ∈ batch, r ∈ rows) :
    notifyBatch rows now s batch = .ok (BatchJob.notifyExpiringUsers.settle now s batch) := by
  have hmessages : ∀ (u : Uuid) (o : Option LoyaltyProfile),
      o.toList.flatMap (BatchJob.notifyExpiringUsers.messages u) =
        o.toList.map (pointsExpiring u) := fun u o => by cases o <;> rfl
  have hentries : (batch.flatMap fun row => (s.db.profiles row.userId).toList.flatMap fun p =>
      (BatchJob.notifyExpiringUsers.entries now row.userId p).map s.db.numbered) = [] := by
    simp [BatchJob.entries]
  unfold notifyBatch BatchJob.settle DB.updateMany
  simp only [any_batch hids hsub, decide_eq_true_eq, hmessages, hentries, List.append_nil]
  rfl

/-- Every job is keyset work. -/
theorem batch_works {db : DB} (hrows : db.Lists rows) (hclock : job.Follows now) :
    Works rows (JobState.selects (job.filter now)) (job.work rows now)
      (fun s r => job.settle now s [r]) (fun s => s.db.InRange) where
  batch := by
    intro s batch hr hnd hmatch
    have husers : (batch.map (·.userId)).Nodup := hnd.map_on fun r hr r' hr' h =>
      List.inj_on_of_nodup_map hrows.users (hmatch r hr).1 (hmatch r' hr').1 h
    have hsel : ∀ r ∈ batch, s.selects (job.filter now) r = true := fun r hr => (hmatch r hr).2
    cases job with
    | expirePoints =>
      exact eachRow_settles (fun hp hr hf => expire_settles hp hr hf) (fun _ _ => by
        simp [BatchJob.settle, BatchJob.messages]) hr husers hsel
    | resetAnnualStats =>
      exact eachRow_settles (fun hp hr _ => annual_settles hp hr) (fun _ _ => by
        simp [BatchJob.settle, BatchJob.messages]) hr husers hsel
    | goldReset clock =>
      exact eachRow_settles (fun hp hr hf => gold_settles hp hr hf (hclock _)) (fun _ _ => by
        simp [BatchJob.settle, BatchJob.messages]) hr husers hsel
    | notifyExpiringUsers =>
      rw [foldl_settle husers]
      exact notifyBatch_settles hrows.ids fun r hr => (hmatch r hr).1
  keeps h _ _ := settle_inRange h
  others := by
    intro s r r' _ hr hr' hne
    exact settle_others fun h => hne (List.inj_on_of_nodup_map hrows.users hr' hr h)

/-- A settled profile has left the filter. -/
theorem update_leaves (job : BatchJob) (now : Instant) (p : LoyaltyProfile) :
    job.filter now (job.update now p) = false := by
  cases job with
  | expirePoints => rfl
  | resetAnnualStats => rfl
  | goldReset clock => rfl
  | notifyExpiringUsers =>
    have hrecent : ¬now < now - NOTIFY_DAYS_BEFORE * MS_IN_A_DAY :=
      not_lt.2 (sub_le_self now (by decide))
    simp [BatchJob.filter, BatchJob.update, isExpiring, hrecent]

/-- With the rows of the filter settled, every profile is as the job leaves it. -/
theorem settle_due (hrows : s.db.Lists rows)
    (hbatch : ∀ r, r ∈ batch ↔ r ∈ rows ∧ s.selects (job.filter now) r = true) (u : Uuid) :
    (job.settle now s batch).db.profiles u =
      (s.db.profiles u).map fun p => if job.filter now p then job.update now p else p := by
  rw [settle_profiles]
  cases hp : s.db.profiles u with
  | none => simp
  | some p =>
    have hsel : u ∈ batch.map (·.userId) ↔ job.filter now p = true := by
      rw [List.mem_map]
      constructor
      · rintro ⟨r, hr, rfl⟩
        obtain ⟨q, hq, hf⟩ := selects_profile ((hbatch r).1 hr).2
        rw [hp] at hq
        cases hq
        exact hf
      · intro hf
        obtain ⟨r, hr, rfl⟩ := List.mem_map.1 ((hrows.listed u).1 (by rw [hp]; rfl))
        refine ⟨r, (hbatch r).2 ⟨hr, ?_⟩, rfl⟩
        unfold JobState.selects
        rw [hp]
        exact hf
    simp only [hsel, Option.map_some]
    split <;> rfl

end work

/-! ### Whole runs -/

/-- A run of any batch job, on any profile table and with any batch size, ends; it works on every
    profile of its filter once and on no other; these profiles change in the job's columns, the
    ledger and the messages grow by the entries of these profiles, and nothing else changes. The same
    job at the same clock then finds nothing to do. -/
theorem batch_jobs_settle {job : BatchJob} {now : Instant} (hclock : job.Follows now)
    {rows : List ProfileKey} {batchSize : ℕ} (hsize : 1 ≤ batchSize) {s : JobState}
    (hrows : s.db.Lists rows) (hrange : s.db.InRange) :
    ∃ s' processed,
      (∀ fuel, rows.length < fuel →
        job.run rows batchSize now fuel s = some (.ok (s', processed))) ∧
      processed.Nodup ∧
      (∀ row, row ∈ processed ↔ row ∈ rows ∧ s.selects (job.filter now) row = true) ∧
      s'.db = { s.db with
        profiles := fun u =>
          (s.db.profiles u).map fun p => if job.filter now p then job.update now p else p
        pointsTransactions := s.db.pointsTransactions ++ processed.flatMap fun row =>
          (s.db.profiles row.userId).toList.flatMap fun p =>
            (job.entries now row.userId p).map s.db.numbered } ∧
      s'.emitted = s.emitted ++ processed.flatMap (fun row =>
        (s.db.profiles row.userId).toList.flatMap (job.messages row.userId)) ∧
      ∀ fuel, 0 < fuel → job.run rows batchSize now fuel s' = some (.ok (s', [])) := by
  have hworks := batch_works hrows hclock
  have hmem : ∀ r, r ∈ due ProfileKey.id rows (s.selects (job.filter now)) none ↔
      r ∈ rows ∧ s.selects (job.filter now) r = true := fun r => by
    simp [mem_due]
  have hnd := due_nodup hrows.ids (s.selects (job.filter now)) none
  have husers : ((due ProfileKey.id rows (s.selects (job.filter now)) none).map (·.userId)).Nodup :=
    hnd.map_on fun r hr r' hr' h =>
      List.inj_on_of_nodup_map hrows.users ((hmem r).1 hr).1 ((hmem r').1 hr').1 h
  have hprofiles := settle_due hrows hmem
  refine ⟨job.settle now s (due ProfileKey.id rows (s.selects (job.filter now)) none),
    due ProfileKey.id rows (s.selects (job.filter now)) none, fun fuel hfuel => ?_, hnd, hmem, ?_,
    rfl, fun fuel hfuel => ?_⟩
  · have hlen : (due ProfileKey.id rows (s.selects (job.filter now)) none).length ≤ rows.length := by
      unfold due
      rw [(descending_perm ProfileKey.id _).length_eq]
      exact List.length_filter_le _ _
    rw [run_eq, hworks.job_eq hrows.ids hsize fuel none hrange (lt_of_le_of_lt hlen hfuel),
      foldl_settle husers]
  · rw [← funext hprofiles]
    rfl
  · have hempty : due ProfileKey.id rows ((job.settle now s
        (due ProfileKey.id rows (s.selects (job.filter now)) none)).selects (job.filter now)) none =
        [] := by
      refine List.eq_nil_iff_forall_not_mem.2 fun r hr => ?_
      obtain ⟨p, hp, hf⟩ := selects_profile (mem_due.1 hr).2.2
      rw [hprofiles] at hp
      obtain ⟨q, -, rfl⟩ := Option.map_eq_some_iff.1 hp
      split at hf
      · rw [update_leaves] at hf
        cases hf
      · contradiction
    rw [run_eq, hworks.job_eq hrows.ids hsize fuel none (settle_inRange hrange)
      (by rw [hempty]; exact hfuel), hempty]
    rfl

/-- Three profiles, of which two expire at the epoch. -/
def DB.three : DB :=
  { DB.empty with
    profiles := fun u =>
      if u = .nil then some { balance := 200, balanceExpiresAt := some 0 }
      else if u = .second then some { balance := 50, balanceExpiresAt := some 0 }
      else if u = .third then some { balance := 30, balanceExpiresAt := some 100 }
      else none }

/-- Their keys. -/
def threeRows : List ProfileKey := [⟨.nil, .nil⟩, ⟨.second, .second⟩, ⟨.third, .third⟩]

theorem three_lists : DB.three.Lists threeRows := by
  refine ⟨by decide, by decide, fun u => ?_⟩
  by_cases h₁ : u = .nil
  · simp [DB.three, threeRows, h₁]
  by_cases h₂ : u = .second
  · have hother : Uuid.second ≠ .nil := by decide
    simp [DB.three, threeRows, h₂, hother]
  · simp [DB.three, threeRows, h₁, h₂]

theorem three_inRange : DB.three.InRange := by
  intro u p hp
  simp only [DB.three] at hp
  split_ifs at hp <;> cases hp <;> decide

/-- With one profile a page, a run expires the two that are due and finds no more. -/
theorem batch_jobs_settle_three : ∃ s' processed,
    (∀ fuel, 3 < fuel → BatchJob.expirePoints.run threeRows 1 5 fuel ⟨DB.three, []⟩ =
      some (.ok (s', processed))) ∧
    processed.Nodup ∧ (∀ row, row ∈ processed ↔ row ∈ threeRows.take 2) ∧
    ∀ fuel, 0 < fuel → BatchJob.expirePoints.run threeRows 1 5 fuel s' = some (.ok (s', [])) := by
  obtain ⟨s', processed, hrun, hnodup, hmem, -, -, hagain⟩ :=
    @batch_jobs_settle .expirePoints 5 trivial _ 1 (by decide) ⟨DB.three, []⟩ three_lists three_inRange
  refine ⟨s', processed, hrun, hnodup, fun row => ?_, hagain⟩
  have hdue : threeRows.filter ((⟨DB.three, []⟩ : JobState).selects (isExpired 5)) = threeRows.take 2 := by
    decide
  rw [hmem, ← hdue, List.mem_filter]
  rfl

end CinemaLoyalty
