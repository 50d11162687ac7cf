import CinemaLoyalty.BatchJobs
import CinemaLoyalty.GoldAvailability
import CinemaLoyalty.Lib.KeysetScan

/-! @svc JobRuns | layer:system | source:src/loyalty/loyalty-expiration.service.ts (expirePoints, resetAnnualStats, goldReset), src/loyalty/processors/loyalty-queue.processor.ts

    The jobs that work profile by profile, beside the rest of the service and other runs of the jobs:
    everything else may write between two pages and between two transactions. `rows` are the keys of
    all profiles that there come to be. -/

namespace CinemaLoyalty
open Txn Transition KeysetScan

/-- The jobs with one transaction for each profile. -/
inductive RowJob
  | expirePoints
  | resetAnnualStats
  | goldReset
  deriving DecidableEq

namespace RowJob

/-- The filter of a job that began at `now`. -/
def filter (now : Instant) : RowJob → LoyaltyProfile → Bool
  | expirePoints => isExpired now
  | resetAnnualStats => hasAnnualStats
  | goldReset => usedBefore (getUtcMonthKey now)

/-- The transaction of a profile and the instant it uses: `expirePoints` keeps that of its start. -/
def call (now clock : Instant) (row : ProfileKey) : RowJob → Call × Instant
  | expirePoints => (.expirePoints row.userId, now)
  | resetAnnualStats => (.resetAnnualStats row.userId, clock)
  | goldReset => (.goldReset row.userId, clock)

/-- The work on a profile; an error ends the job. -/
def work (now : Instant) (job : RowJob) (clock : Instant) (row : ProfileKey) (db : DB) : Option DB :=
  match (job.call now clock row).1.exec (job.call now clock row).2 db with
  | (.ok _, db') => some db'
  | (.error _, _) => none

/-- A job beside all operations of the service. -/
def scan (job : RowJob) (now : Instant) (rows : List ProfileKey) (batchSize : ℕ) :
    KeysetScan.Job DB ProfileKey Uuid Op Instant where
  key := ProfileKey.id
  rows
  take := batchSize
  cond db row := (db.profiles row.userId).any (job.filter now)
  work := job.work now
  other op db := op.exec db

end RowJob

section runs
variable {job : RowJob} {now clock : Instant} {readings : ProfileKey → Instant}
  {rows : List ProfileKey} {batchSize : ℕ} {db db' : DB} {row : ProfileKey}

/-- The work of a job is an operation. -/
theorem work_op (h : job.work now clock row db = some db') : ∃ op : Op, op.exec db = db' := by
  unfold RowJob.work at h
  split at h
  · rename_i hexec
    obtain rfl := Option.some.inj h
    refine ⟨.call (job.call now clock row).1 (job.call now clock row).2, ?_⟩
    simp only [Op.exec, hexec]
  · cases h

/-- The job as it runs alone. -/
def RowJob.alone (readings : ProfileKey → Instant) : RowJob → BatchJob
  | .expirePoints => .expirePoints
  | .resetAnnualStats => .resetAnnualStats
  | .goldReset => .goldReset readings

theorem alone_filter (readings : ProfileKey → Instant) :
    (job.alone readings).filter now = job.filter now := by
  cases job <;> rfl

/-- A call whose transaction is a program and the wrapping of its answer. -/
theorem exec_wrapped {α : Type} {p : Tx α} {f : α → Answer} {c : Call} {t : Instant} {r : α}
    (htx : c.tx t = p >>= fun r => .pure (f r)) (hrun : db.run p = .ok (r, db')) :
    c.exec t db = (.ok (f r), db') := by
  refine exec_ok ?_
  rw [htx, run_wrap_eq, hrun]
  rfl

/-- The transaction of a profile that the filter selects settles it. -/
theorem work_settles {p : LoyaltyProfile} (hclock : now ≤ clock)
    (hp : db.profiles row.userId = some p) (hr : p.inRange = true) (hf : job.filter now p = true) :
    job.work now clock row db = some ((job.alone fun _ => clock).settle now ⟨db, []⟩ [row]).db := by
  let s : JobState := ⟨db, []⟩
  have hp' : s.db.profiles row.userId = some p := hp
  unfold RowJob.work
  cases job with
  | expirePoints =>
    obtain ⟨a, hrun⟩ := expire_settles hp' hr hf
    simp only [RowJob.call, RowJob.alone]
    rw [exec_wrapped (c := .expirePoints row.userId) rfl hrun]
  | resetAnnualStats =>
    have hsettles : ∃ a, s.db.run (resetAnnualStatsStep row.userId) =
        .ok (a, (BatchJob.resetAnnualStats.settle now s [row]).db) := annual_settles hp' hr
    obtain ⟨a, hrun⟩ := hsettles
    simp only [RowJob.call, RowJob.alone]
    rw [exec_wrapped (c := .resetAnnualStats row.userId) rfl hrun]
  | goldReset =>
    have hf' : (BatchJob.goldReset fun _ => clock).filter now p = true := hf
    obtain ⟨a, hrun⟩ := gold_settles hp' hr hf' hclock
    simp only [RowJob.call, RowJob.alone]
    rw [exec_wrapped (c := .goldReset row.userId) rfl hrun]

/-- Every job settles the profiles of its filter, whatever the others write. -/
theorem scan_settles (job : RowJob) (now : Instant) (rows : List ProfileKey) (batchSize : ℕ) :
    Settles (job.scan now rows batchSize) (now ≤ ·) Fits where
  other op h := op_fits op h
  work hwork h := by
    obtain ⟨op, rfl⟩ := work_op hwork
    exact op_fits op h
  settles := by
    intro clock row db db' hclock hfits hcond hwork
    obtain ⟨p, hp, hf⟩ := (Option.any_eq_true _ _).1 hcond
    have hdb := work_settles hclock hp (hfits _ p hp) hf
    obtain rfl := Option.some.inj (hdb.symm.trans hwork)
    show Option.any (job.filter now)
      (((job.alone fun _ => clock).settle now ⟨db, []⟩ [row]).db.profiles row.userId) = false
    rw [settle_one_profiles, if_pos rfl, hp, Option.map_some, Option.any_some,
      ← alone_filter (fun _ => clock), update_leaves]

/-- A batch whose transactions follow each other. -/
theorem eachRow_works {α : Type} {step : ProfileKey → Tx α} {f : α → Answer}
    (hstep : ∀ row, (job.call now (readings row) row).1.tx (job.call now (readings row) row).2 =
      step row >>= fun r => .pure (f r)) {batch : List ProfileKey} {s s' : JobState}
    (h : eachRow step s batch = .ok s') :
    batch.foldlM (fun x row => job.work now (readings row) row x) s.db = some s'.db := by
  induction batch generalizing s with
  | nil =>
    cases h
    rfl
  | cons row batch ih =>
    unfold eachRow at h ih
    rw [List.foldlM_cons] at h ⊢
    rcases transaction_cases (step row) s.db with ⟨e, -, he⟩ | ⟨a, x, hrun, he⟩
    · rw [he] at h
      cases h
    · rw [he] at h
      have hwork : job.work now (readings row) row s.db = some x := by
        unfold RowJob.work
        rw [exec_wrapped (hstep row) hrun]
      rw [hwork]
      exact ih h

/-- A job that runs alone is a run of its scan. -/
theorem alone_scans (hclock : ∀ row, now ≤ readings row) {fuel : ℕ} {s s' : JobState}
    {worked : List ProfileKey}
    (h : (job.alone readings).run rows batchSize now fuel s = some (.ok (s', worked))) :
    ∃ t, ((job.scan now rows batchSize).system s.db).ReachedBy (fun a _ => a.Reads (now ≤ ·)) t ∧
      t.phase = .finished ∧ t.world = s'.db ∧ t.worked = worked := by
  rw [run_eq, alone_filter] at h
  refine leads_job readings hclock JobState.db ?_ fuel rfl rfl rfl h
  intro t batch t' hwork
  cases job with
  | expirePoints => exact eachRow_works (fun _ => rfl) hwork
  | resetAnnualStats => exact eachRow_works (fun _ => rfl) hwork
  | goldReset => exact eachRow_works (fun _ => rfl) hwork

/-- A job beside any other writers: it works on a profile at most once, in descending order of the
    ids, and only on one that its filter selected; and when it has ended, no profile was in the
    filter all the time. -/
theorem row_jobs_settle (hsize : 1 ≤ batchSize) (hids : (rows.map (·.id)).Nodup) (hfits : Fits db)
    {s : Scan DB ProfileKey Uuid} (h : ((job.scan now rows batchSize).system db).ReachedBy
      (fun a _ => a.Reads (now ≤ ·)) s) :
    (s.worked.Pairwise fun a b => b.id < a.id) ∧
      (∀ row ∈ s.worked, ∃ x ∈ s.past, (x.profiles row.userId).any (job.filter now) = true) ∧
      (s.phase = .finished →
        ∀ row ∈ rows, ∃ x ∈ s.past, (x.profiles row.userId).any (job.filter now) = false) := by
  obtain ⟨hdescends, hselected, -⟩ := scanned hids hsize h
  refine ⟨hdescends, fun row hrow => (hselected row hrow).2, fun hfinished => ?_⟩
  exact settled (scan_settles job now rows batchSize) hids hsize hfits h hfinished

/-- Two profiles are read to be expired, and one of them is credited before its transaction: it keeps
    its points. -/
theorem row_jobs_settle_credited : ∃ s : Scan DB ProfileKey Uuid, s.phase = .finished ∧
    s.worked.map (·.id) = [.second, .nil] ∧
    (threeRows.map fun row => (s.world.profiles row.userId).map (·.balance)) =
      [some 0, some 60, some 30] ∧
    ∀ row ∈ threeRows, ∃ x ∈ s.past, (x.profiles row.userId).any (isExpired 5) = false := by
  obtain ⟨s, h, hp⟩ := ((RowJob.expirePoints.scan 5 threeRows 2).system
      DB.three).reachedBy_of_exec (fun a _ => a.Reads ((5 : Instant) ≤ ·))
    [.fetch, .other (.call (.modifyPointsGrpc ⟨Uuid.second.text, .second, secondText_named⟩ "admin" 10
      "goodwill") 5), .work 6, .work 6, .fetch]
    (fun s => decide (s.phase = .finished) && decide (s.worked.map (·.id) = [.second, .nil]) &&
      decide ((threeRows.map fun row => (s.world.profiles row.userId).map (·.balance)) =
        [some 0, some 60, some 30])) (by decide +kernel)
  simp only [Bool.and_eq_true, decide_eq_true_iff] at hp
  obtain ⟨-, -, hall⟩ := row_jobs_settle (by decide) (by decide) three_inRange h
  exact ⟨s, hp.1.1, hp.1.2, hp.2, hall hp.1.1⟩

end runs

end CinemaLoyalty
