import CinemaLoyalty.BatchJobs
import CinemaLoyalty.Lib.Transition

/-! @svc Notifications | layer:system | source:src/loyalty/loyalty-expiration.service.ts (notifyExpiringUsers), src/loyalty/producers/loyalty-scheduler.producer.ts

    Any number of overlapping runs of `notifyExpiringUsers`: a run reads a batch, marks its profiles
    and then emits their messages one by one; between any two steps other runs and other operations
    take steps of their own, or the run's process dies. Only these runs write
    `lastExpiryNotificationAt`. A message counts from the clock reading of its run, which is what the
    profile records. -/

namespace CinemaLoyalty
open Txn Transition

/-- A profile of a batch, as it was read. -/
structure Notice where
  row : ProfileKey
  profile : LoyaltyProfile

/-- Where a run stands; its clock was read at the start. -/
inductive NotifyPhase
  | idle
  | reading (now : Instant) (lastSeenId : Option Uuid)
  | marking (now : Instant) (batch : List Notice)
  | emitting (now : Instant) (lastSeenId : Option Uuid) (left : List Notice)
  | over

/-- Read and not marked yet. -/
def NotifyPhase.unmarked : NotifyPhase → List Notice
  | marking _ batch => batch
  | _ => []

/-- Marked and not emitted yet. -/
def NotifyPhase.unsent : NotifyPhase → List Notice
  | emitting _ _ left => left
  | _ => []

/-- A run has set a profile's `lastExpiryNotificationAt`. -/
structure Mark (Run : Type) where
  run : Run
  now : Instant
  userId : Uuid

/-- The profile table, the runs, and what they have marked and emitted so far. -/
structure NotifyState (Run : Type) where
  rows : List ProfileKey
  db : DB
  runs : Run → NotifyPhase
  marked : List (Mark Run)
  sent : List (Mark Run × PointsExpiring)

/-- What happens: a profile is created or written by another operation, a run begins, reads a batch,
    marks it, emits a message, or dies. -/
inductive NotifyAction (Run : Type)
  | create (row : ProfileKey)
  | write (userId : Uuid) (data : LoyaltyProfile → LoyaltyProfile)
  | start (r : Run) (now : Instant)
  | select (r : Run)
  | mark (r : Run)
  | emit (r : Run)
  | crash (r : Run)

/-- `findMany`: the next batch of a run. -/
def DB.expiringBatch (db : DB) (rows : List ProfileKey) (batchSize : ℕ) (now : Instant)
    (lastSeenId : Option Uuid) : List Notice :=
  (Keyset.page ProfileKey.id rows batchSize
    (fun row => (db.profiles row.userId).any (isExpiring now)) lastSeenId).filterMap fun row =>
      (db.profiles row.userId).map fun profile => { row, profile }

section machine
variable {Run : Type} [DecidableEq Run]

/-- A run moves on. -/
def NotifyState.move (s : NotifyState Run) (r : Run) (phase : NotifyPhase) : NotifyState Run :=
  { s with runs := Function.update s.runs r phase }

/-- The state after an action; `none` where it cannot happen. -/
def notifyStep (batchSize : ℕ) : NotifyAction Run → NotifyState Run → Option (NotifyState Run)
  | .create row, s =>
    if row.id ∉ s.rows.map (·.id) ∧ row.userId ∉ s.rows.map (·.userId) then
      some { s with rows := s.rows ++ [row], db := s.db.ensureProfile row.userId }
    else none
  | .write userId data, s =>
    (s.db.profiles userId).map fun p =>
      { s with db := s.db.apply (.updateProfile userId
          { data p with lastExpiryNotificationAt := p.lastExpiryNotificationAt }) }
  | .start r now, s =>
    match s.runs r with
    | .idle => some (s.move r (.reading now none))
    | _ => none
  | .select r, s =>
    match s.runs r with
    | .reading now lastSeenId =>
      let batch := s.db.expiringBatch s.rows batchSize now lastSeenId
      some (s.move r (if batch.isEmpty then .over else .marking now batch))
    | _ => none
  | .mark r, s =>
    match s.runs r with
    | .marking now batch =>
      some
        { s.move r (.emitting now (batch.getLast?.map (·.row.id)) batch) with
          db := s.db.updateMany s.rows (batch.map (·.row.id)) fun p =>
            { p with lastExpiryNotificationAt := some now }
          marked := s.marked ++ batch.map fun x => { run := r, now, userId := x.row.userId } }
    | _ => none
  | .emit r, s =>
    match s.runs r with
    | .emitting now lastSeenId (x :: left) =>
      some
        { s.move r (if left.isEmpty then .reading now lastSeenId else .emitting now lastSeenId left) with
          sent := s.sent ++
            [({ run := r, now, userId := x.row.userId }, pointsExpiring x.row.userId x.profile)] }
    | _ => none
  | .crash r, s =>
    match s.runs r with
    | .over => none
    | _ => some (s.move r .over)

/-- Runs over a profile table. -/
def notifications (rows : List ProfileKey) (batchSize : ℕ) (db : DB) :
    System (NotifyState Run) (NotifyAction Run) where
  first := { rows, db, runs := fun _ => .idle, marked := [], sent := [] }
  step := notifyStep batchSize

/-- A step keeps out of the way of the failures: a run reads no profile that another run has read
    and not marked yet, and no run dies between marking a batch and its last message. -/
def Careful (batchSize : ℕ) : NotifyAction Run → NotifyState Run → Prop
  | .select r, s => ∀ now lastSeenId, s.runs r = .reading now lastSeenId →
    ∀ x ∈ s.db.expiringBatch s.rows batchSize now lastSeenId, ∀ r', ∀ y ∈ (s.runs r').unmarked,
      x.row.userId ≠ y.row.userId
  | .crash r, s => (s.runs r).unsent = []
  | _, _ => True

end machine

/-! ### A run left alone -/

section alone
variable {Run : Type} [DecidableEq Run] {rows : List ProfileKey} {batchSize : ℕ} {db₀ : DB}
  {r : Run} {now : Instant} {lastSeenId : Option Uuid} {s : NotifyState Run}

theorem move_same {phase : NotifyPhase} : (s.move r phase).runs r = phase := by
  unfold NotifyState.move
  exact Function.update_self _ _ _

theorem move_other {r' : Run} {phase : NotifyPhase} (h : r' ≠ r) :
    (s.move r phase).runs r' = s.runs r' := by
  unfold NotifyState.move
  exact Function.update_of_ne h _ _

/-- What the job works on. -/
def NotifyState.jobState (s : NotifyState Run) : JobState where
  db := s.db
  emitted := s.sent.map Prod.snd

/-- The messages of a batch. -/
def messagesOf (batch : List Notice) : List PointsExpiring :=
  batch.map fun x => pointsExpiring x.row.userId x.profile

/-- The messages of the rows, as the table has them. -/
theorem messagesOf_rows (db : DB) (l : List ProfileKey) :
    messagesOf (l.filterMap fun row => (db.profiles row.userId).map fun profile => ⟨row, profile⟩) =
      l.flatMap fun row => (db.profiles row.userId).toList.map (pointsExpiring row.userId) := by
  unfold messagesOf
  induction l with
  | nil => rfl
  | cons row l ih =>
    cases hp : db.profiles row.userId with
    | none => simpa [hp] using ih
    | some p => simpa [hp] using ih

/-- Every selected row has its profile read. -/
theorem expiringBatch_map_row (db : DB) : (db.expiringBatch rows batchSize now lastSeenId).map (·.row) =
    Keyset.page ProfileKey.id rows batchSize
      (fun row => (db.profiles row.userId).any (isExpiring now)) lastSeenId := by
  have hread : ∀ l : List ProfileKey, (∀ row ∈ l, (db.profiles row.userId).isSome = true) →
      (l.filterMap fun row =>
        (db.profiles row.userId).map fun profile => (⟨row, profile⟩ : Notice)).map (·.row) = l := by
    intro l hl
    induction l with
    | nil => rfl
    | cons row l ih =>
      obtain ⟨p, hp⟩ := Option.isSome_iff_exists.1 (hl row (List.mem_cons_self ..))
      have htail := ih fun row' hrow' => hl row' (List.mem_cons_of_mem _ hrow')
      simpa [hp] using htail
  refine hread _ fun row hrow => ?_
  obtain ⟨-, -, hmatch⟩ := Keyset.mem_due.1 (List.mem_of_mem_take hrow)
  obtain ⟨p, hp, -⟩ := (Option.any_eq_true _ _).1 hmatch
  rw [hp]
  rfl

/-- The messages of a marked batch go out one by one. -/
theorem emits_lead {left : List Notice} {s : NotifyState Run} {x : Notice}
    (hrun : s.runs r = .emitting now lastSeenId (x :: left)) :
    ∃ s', (notifications rows batchSize db₀).Leads s s' ∧ s'.runs r = .reading now lastSeenId ∧
      s'.rows = s.rows ∧ s'.db = s.db ∧
      s'.sent.map Prod.snd = s.sent.map Prod.snd ++ messagesOf (x :: left) := by
  induction left generalizing s x with
  | nil =>
    let s' : NotifyState Run := { s.move r (.reading now lastSeenId) with
      sent := s.sent ++
        [({ run := r, now, userId := x.row.userId }, pointsExpiring x.row.userId x.profile)] }
    have hs : notifyStep batchSize (.emit r) s = some s' := by simp [notifyStep, hrun, s']
    refine ⟨s', .single ⟨.emit r, trivial, hs⟩, move_same (s := s), rfl, rfl, ?_⟩
    simp [s', messagesOf]
  | cons y left ih =>
    let s₁ : NotifyState Run := { s.move r (.emitting now lastSeenId (y :: left)) with
      sent := s.sent ++
        [({ run := r, now, userId := x.row.userId }, pointsExpiring x.row.userId x.profile)] }
    have hs : notifyStep batchSize (.emit r) s = some s₁ := by simp [notifyStep, hrun, s₁]
    obtain ⟨s', hleads, hrun', hrows, hdb, hsent⟩ := ih (s := s₁) (move_same (s := s))
    refine ⟨s', .head ⟨.emit r, trivial, hs⟩ hleads, hrun', hrows, hdb, ?_⟩
    rw [hsent]
    simp [s₁, messagesOf]

/-- A batch of a run that nothing comes between is a batch of the job. -/
theorem batch_leads (hrun : s.runs r = .reading now lastSeenId) {batch : List ProfileKey}
    (hbatch : Keyset.page ProfileKey.id s.rows batchSize
      (JobState.selects (isExpiring now) s.jobState) lastSeenId = batch) (hne : batch ≠ []) :
    ∃ s', (notifications rows batchSize db₀).Leads s s' ∧
      s'.runs r = .reading now (batch.getLast?.map (·.id)) ∧ s'.rows = s.rows ∧
      notifyBatch s.rows now s.jobState batch = .ok s'.jobState := by
  have hrows : (s.db.expiringBatch s.rows batchSize now lastSeenId).map (·.row) = batch :=
    (expiringBatch_map_row s.db).trans hbatch
  have hmessages : messagesOf (s.db.expiringBatch s.rows batchSize now lastSeenId) =
      batch.flatMap fun row => (s.db.profiles row.userId).toList.map (pointsExpiring row.userId) := by
    rw [← hbatch]
    exact messagesOf_rows s.db _
  obtain ⟨x, left, hx⟩ : ∃ x left, s.db.expiringBatch s.rows batchSize now lastSeenId = x :: left := by
    refine List.exists_cons_of_ne_nil fun hnil => hne ?_
    rw [← hrows, hnil]
    rfl
  rw [hx] at hrows hmessages
  have hlast : (x :: left).getLast?.map (·.row.id) = batch.getLast?.map (·.id) := by
    rw [← hrows, List.getLast?_map, Option.map_map]
    rfl
  let s₁ := s.move r (.marking now (x :: left))
  have hselect : notifyStep batchSize (.select r) s = some s₁ := by simp [notifyStep, hrun, hx, s₁]
  let s₂ : NotifyState Run :=
    { s₁.move r (.emitting now (batch.getLast?.map (·.id)) (x :: left)) with
      db := s.db.updateMany s.rows (batch.map (·.id)) fun p =>
        { p with lastExpiryNotificationAt := some now }
      marked := s.marked ++ (x :: left).map fun x => { run := r, now, userId := x.row.userId } }
  have hmark : notifyStep batchSize (.mark r) s₁ = some s₂ := by
    have hrun₁ : s₁.runs r = .marking now (x :: left) := move_same
    simp only [notifyStep, hrun₁, hlast]
    simp only [s₂, ← hrows, List.map_map]
    rfl
  obtain ⟨s', hleads, hrun', hrows', hdb, hsent⟩ :=
    @emits_lead Run _ rows batchSize db₀ r now (batch.getLast?.map (·.id)) left s₂ x (move_same (s := s₁))
  refine ⟨s', .head ⟨.select r, trivial, hselect⟩ (.head ⟨.mark r, trivial, hmark⟩ hleads), hrun',
    hrows', ?_⟩
  unfold notifyBatch NotifyState.jobState
  rw [hdb, hsent, hmessages]
  rfl

/-- Page by page, a run that nothing comes between is the job. -/
theorem job_leads {j : JobState} {fuel : ℕ} {s : NotifyState Run} {lastSeenId : Option Uuid}
    {worked : List ProfileKey} (hrun : s.runs r = .reading now lastSeenId)
    (hjob : Keyset.job ProfileKey.id s.rows batchSize (JobState.selects (isExpiring now))
      (notifyBatch s.rows now) fuel s.jobState lastSeenId = some (.ok (j, worked))) :
    ∃ s', (notifications rows batchSize db₀).Leads s s' ∧ s'.runs r = .over ∧ s'.jobState = j := by
  induction fuel generalizing s lastSeenId worked with
  | zero => simp [Keyset.job] at hjob
  | succ fuel ih =>
    simp only [Keyset.job] at hjob
    generalize hbatch : Keyset.page ProfileKey.id s.rows batchSize
      (JobState.selects (isExpiring now) s.jobState) lastSeenId = batch at hjob
    split at hjob
    · rename_i hnil
      rw [List.isEmpty_iff.1 hnil] at hbatch
      have hread : s.db.expiringBatch s.rows batchSize now lastSeenId = [] :=
        List.map_eq_nil_iff.1 ((expiringBatch_map_row s.db).trans hbatch)
      have hs : notifyStep batchSize (.select r) s = some (s.move r .over) := by
        simp [notifyStep, hrun, hread]
      cases hjob
      exact ⟨_, .single ⟨.select r, trivial, hs⟩, move_same, rfl⟩
    · rename_i hne
      obtain ⟨s₁, hleads, hrun₁, hrows, hwork⟩ := @batch_leads Run _ rows batchSize db₀ r now _ s hrun
        batch hbatch (fun hnil => hne (List.isEmpty_iff.2 hnil))
      rw [hwork, Option.map_eq_some_iff] at hjob
      obtain ⟨result, hjob, hresult⟩ := hjob
      cases result with
      | error e => cases hresult
      | ok result =>
        obtain ⟨j', seen⟩ := result
        simp only [Except.map, Except.ok.injEq, Prod.mk.injEq] at hresult
        obtain ⟨rfl, -⟩ := hresult
        rw [← hrows] at hjob
        obtain ⟨s', hleads', hrest⟩ := ih hrun₁ hjob
        exact ⟨s', hleads.trans hleads', hrest⟩

/-- Left alone, a run of the machine does what `notifyExpiringUsers` does. -/
theorem notifyExpiringUsers_leads (hidle : s.runs r = .idle) {fuel : ℕ} {j : JobState}
    {worked : List ProfileKey}
    (hjob : notifyExpiringUsers s.rows batchSize now fuel s.jobState = some (.ok (j, worked))) :
    ∃ s', (notifications rows batchSize db₀).Leads s s' ∧ s'.runs r = .over ∧ s'.jobState = j := by
  have hs : notifyStep batchSize (.start r now) s = some (s.move r (.reading now none)) := by
    simp [notifyStep, hidle]
  obtain ⟨s', hleads, hend⟩ := @job_leads Run _ rows batchSize db₀ r now j fuel
    (s.move r (.reading now none)) none worked move_same hjob
  exact ⟨s', .head ⟨.start r now, trivial, hs⟩ hleads, hend⟩

end alone

/-! ### The column -/

/-- When a user was last notified, as the profile records it. -/
def DB.notifiedAt (db : DB) (u : Uuid) : Option Instant :=
  (db.profiles u).bind (·.lastExpiryNotificationAt)

/-- `NOTIFY_DAYS_BEFORE` days in milliseconds. -/
def NOTIFY_WINDOW : ℤ := NOTIFY_DAYS_BEFORE * MS_IN_A_DAY

section column
variable {db db' : DB} {rows : List ProfileKey} {batch : List Notice} {batchSize : ℕ} {now : Instant}
  {lastSeenId : Option Uuid} {u : Uuid} {x : Notice}

/-- No notification in the last thirty days. -/
def DB.Unnotified (db : DB) (now : Instant) (u : Uuid) : Prop :=
  (db.profiles u).isSome = true ∧ ∀ t ∈ db.notifiedAt u, t < now - NOTIFY_WINDOW

theorem ensure_notifiedAt (u v : Uuid) : (db.ensureProfile u).notifiedAt v = db.notifiedAt v :=
  ensureProfile_column rfl u v

theorem ensure_isSome (u : Uuid) {v : Uuid} (h : (db.profiles v).isSome = true) :
    ((db.ensureProfile u).profiles v).isSome = true := by
  rw [ensureProfile_profiles]
  split
  · rfl
  · exact h

/-- The writes of other operations. -/
theorem write_notifiedAt {p : LoyaltyProfile} (data : LoyaltyProfile → LoyaltyProfile)
    (hp : db.profiles u = some p) (v : Uuid) :
    (db.apply (.updateProfile u
      { data p with lastExpiryNotificationAt := p.lastExpiryNotificationAt })).notifiedAt v =
      db.notifiedAt v := by
  refine (updateProfile_column hp (·.lastExpiryNotificationAt) v).trans ?_
  unfold DB.notifiedAt
  by_cases hv : v = u
  · rw [if_pos hv, hv, hp]
    rfl
  · rw [if_neg hv]

theorem write_isSome {p : LoyaltyProfile} {v : Uuid} (h : (db.profiles v).isSome = true) :
    ((db.apply (.updateProfile u p)).profiles v).isSome = true := by
  rw [profiles_updateProfile]
  by_cases hv : v = u
  · rw [if_pos hv, Option.isSome_map, ← hv]
    exact h
  · rw [if_neg hv]
    exact h

/-- What a run reads: rows of the table, each once, that match the filter. -/
theorem mem_expiringBatch (h : x ∈ db.expiringBatch rows batchSize now lastSeenId) :
    x.row ∈ rows ∧ db.Unnotified now x.row.userId := by
  obtain ⟨row, hrow, hx⟩ := List.mem_filterMap.1 h
  obtain ⟨p, hp, rfl⟩ := Option.map_eq_some_iff.1 hx
  obtain ⟨hin, -, hmatch⟩ := Keyset.mem_due.1 (List.mem_of_mem_take hrow)
  refine ⟨hin, by rw [hp]; rfl, fun t ht => ?_⟩
  rw [hp, Option.any_some] at hmatch
  simp only [isExpiring, Bool.and_eq_true, Option.all_eq_true, decide_eq_true_eq] at hmatch
  have hlast : p.lastExpiryNotificationAt = some t := by
    simpa only [DB.notifiedAt, hp, Option.bind_some, Option.mem_def] using ht
  exact hmatch.2 t hlast

theorem expiringBatch_rows (l : List ProfileKey) : ((l.filterMap fun row =>
    (db.profiles row.userId).map fun profile => (⟨row, profile⟩ : Notice)).map (·.row)).Sublist l := by
  induction l with
  | nil => exact .slnil
  | cons row l ih =>
    cases hp : db.profiles row.userId with
    | none =>
      simp only [List.filterMap_cons, hp, Option.map_none]
      exact ih.cons _
    | some p =>
      simp only [List.filterMap_cons, hp, Option.map_some, List.map_cons]
      exact ih.cons_cons _

theorem expiringBatch_nodup (hids : (rows.map (·.id)).Nodup) (husers : (rows.map (·.userId)).Nodup) :
    ((db.expiringBatch rows batchSize now lastSeenId).map (·.row.userId)).Nodup := by
  have hrows : ((db.expiringBatch rows batchSize now lastSeenId).map (·.row)).Sublist
      (Keyset.due ProfileKey.id rows (fun row => (db.profiles row.userId).any (isExpiring now))
        lastSeenId) := (expiringBatch_rows _).trans (List.take_sublist _ _)
  have hdue := Keyset.due_nodup hids
    (fun row => (db.profiles row.userId).any (isExpiring now)) lastSeenId
  have hnd : ((Keyset.due ProfileKey.id rows
      (fun row => (db.profiles row.userId).any (isExpiring now)) lastSeenId).map (·.userId)).Nodup :=
    hdue.map_on fun r hr r' hr' h =>
      List.inj_on_of_nodup_map husers (Keyset.mem_due.1 hr).1 (Keyset.mem_due.1 hr').1 h
  have husersOf : (db.expiringBatch rows batchSize now lastSeenId).map (·.row.userId) =
      ((db.expiringBatch rows batchSize now lastSeenId).map (·.row)).map (·.userId) := by simp
  rw [husersOf]
  exact (hrows.map _).nodup hnd

/-- Marking sets the column of the batch to the clock reading of the run. -/
theorem mark_notifiedAt (hids : (rows.map (·.id)).Nodup) (hsub : ∀ x ∈ batch, x.row ∈ rows)
    (u : Uuid) : (db.updateMany rows (batch.map (·.row.id)) fun p =>
      { p with lastExpiryNotificationAt := some now }).notifiedAt u =
      if u ∈ batch.map (·.row.userId) then (db.profiles u).map fun _ => now else db.notifiedAt u := by
  have hany : (rows.any fun r =>
      decide (r.userId = u) && decide (r.id ∈ (batch.map (·.row)).map (·.id))) =
      decide (u ∈ (batch.map (·.row)).map (·.userId)) := any_batch hids (fun r hr => by
    obtain ⟨x, hx, rfl⟩ := List.mem_map.1 hr
    exact hsub x hx) u
  rw [List.map_map, List.map_map] at hany
  have hids' : (fun x : Notice => x.row.id) = (fun r : ProfileKey => r.id) ∘ fun x => x.row := rfl
  have husers' : (fun x : Notice => x.row.userId) = (fun r : ProfileKey => r.userId) ∘ fun x => x.row :=
    rfl
  unfold DB.notifiedAt DB.updateMany
  simp only [hids', husers', hany, decide_eq_true_eq]
  split
  · cases db.profiles u <;> rfl
  · rfl

theorem mark_isSome {v : Uuid} {ids : List Uuid} {data : LoyaltyProfile → LoyaltyProfile}
    (h : (db.profiles v).isSome = true) : ((db.updateMany rows ids data).profiles v).isSome = true := by
  unfold DB.updateMany
  simp only
  split
  · rwa [Option.isSome_map]
  · exact h

end column

/-! ### What careful runs keep -/

/-- Two clock readings more than thirty days apart. -/
def Apart (t t' : Instant) : Prop := NOTIFY_WINDOW < |t' - t|

theorem apart_of_lt {t t' : ℤ} (h : t < t' - NOTIFY_WINDOW) : Apart t t' :=
  lt_of_lt_of_le (lt_sub_comm.1 h) (le_abs_self _)

theorem Apart.symm {t t' : ℤ} (h : Apart t t') : Apart t' t := by
  unfold Apart
  rw [abs_sub_comm]
  exact h

/-- The invariant: what is read is not notified and read by one run only; what is marked is recorded,
    thirty days after the mark before, and is either emitted or about to be, once. -/
structure Notified {Run : Type} (s : NotifyState Run) : Prop where
  ids : (s.rows.map (·.id)).Nodup
  users : (s.rows.map (·.userId)).Nodup
  read : ∀ r now batch, s.runs r = .marking now batch → (batch.map (·.row.userId)).Nodup ∧
    ∀ x ∈ batch, x.row ∈ s.rows ∧ s.db.Unnotified now x.row.userId
  exclusive : ∀ r r', r ≠ r' → ∀ x ∈ (s.runs r).unmarked, ∀ y ∈ (s.runs r').unmarked,
    x.row.userId ≠ y.row.userId
  recorded : ∀ m ∈ s.marked, ∃ t ∈ s.db.notifiedAt m.userId, m.now ≤ t
  spaced : s.marked.Pairwise fun a b => a.userId = b.userId → a.now < b.now - NOTIFY_WINDOW
  accounted : ∀ m ∈ s.marked, (∃ message, (m, message) ∈ s.sent) ∨
    ∃ lastSeenId left, s.runs m.run = .emitting m.now lastSeenId left ∧
      ∃ x ∈ left, x.row.userId = m.userId
  pending : ∀ r now lastSeenId left, s.runs r = .emitting now lastSeenId left →
    (left.map (·.row.userId)).Nodup ∧ ∀ x ∈ left, ⟨r, now, x.row.userId⟩ ∈ s.marked ∧
      ∀ message, (⟨r, now, x.row.userId⟩, message) ∉ s.sent
  emitted : ∀ m message, (m, message) ∈ s.sent → m ∈ s.marked ∧ message.userId = m.userId
  once : s.sent.Pairwise fun a b => a.1.userId = b.1.userId → Apart a.1.now b.1.now

section steps
variable {Run : Type} [DecidableEq Run] {s : NotifyState Run} {r : Run} {phase : NotifyPhase}

omit [DecidableEq Run] in
/-- A table that grows and columns written elsewhere change nothing. -/
theorem notified_db (h : Notified s) {rows : List ProfileKey} {db : DB}
    (hids : (rows.map (·.id)).Nodup) (husers : (rows.map (·.userId)).Nodup)
    (hsub : ∀ row ∈ s.rows, row ∈ rows) (hsome : ∀ u, (s.db.profiles u).isSome = true →
      (db.profiles u).isSome = true) (hat : ∀ u, db.notifiedAt u = s.db.notifiedAt u) :
    Notified { s with rows, db } where
  ids := hids
  users := husers
  read := by
    intro r now batch hr
    obtain ⟨hnd, hread⟩ := h.read r now batch hr
    refine ⟨hnd, fun x hx => ⟨hsub _ (hread x hx).1, hsome _ (hread x hx).2.1, fun t ht => ?_⟩⟩
    exact (hread x hx).2.2 t (by rw [← hat]; exact ht)
  exclusive := h.exclusive
  recorded := by
    intro m hm
    obtain ⟨t, ht, hle⟩ := h.recorded m hm
    exact ⟨t, by rw [hat]; exact ht, hle⟩
  spaced := h.spaced
  accounted := h.accounted
  pending := h.pending
  emitted := h.emitted
  once := h.once

/-- A run that moves on to where it has read nothing leaves what is read to the other runs. -/
theorem exclusive_moved (h : Notified s) (hread : phase.unmarked = []) : ∀ r₁ r₂, r₁ ≠ r₂ →
    ∀ x ∈ ((s.move r phase).runs r₁).unmarked, ∀ y ∈ ((s.move r phase).runs r₂).unmarked,
      x.row.userId ≠ y.row.userId := by
  have hold : ∀ r', ∀ x ∈ ((s.move r phase).runs r').unmarked, x ∈ (s.runs r').unmarked := by
    intro r' x hx
    by_cases hr : r' = r
    · rw [hr, move_same, hread] at hx
      cases hx
    · rwa [move_other hr] at hx
  exact fun r₁ r₂ hne x hx y hy => h.exclusive r₁ r₂ hne x (hold r₁ x hx) y (hold r₂ y hy)

theorem read_moved (h : Notified s) (hread : phase.unmarked = []) : ∀ r' now batch,
    (s.move r phase).runs r' = .marking now batch → (batch.map (·.row.userId)).Nodup ∧
      ∀ x ∈ batch, x.row ∈ s.rows ∧ s.db.Unnotified now x.row.userId := by
  intro r' now batch hr'
  by_cases hr : r' = r
  · rw [hr, move_same] at hr'
    rw [hr'] at hread
    rw [show batch = [] from hread]
    exact ⟨List.nodup_nil, fun _ hx => by cases hx⟩
  · exact h.read r' now batch ((move_other hr).symm.trans hr')

/-- The messages still to be emitted are those of other runs than one that owes none. -/
theorem accounted_moved (h : Notified s) (howes : (s.runs r).unsent = []) : ∀ m ∈ s.marked,
    (∃ message, (m, message) ∈ s.sent) ∨
      ∃ lastSeenId left, (s.move r phase).runs m.run = .emitting m.now lastSeenId left ∧
        ∃ x ∈ left, x.row.userId = m.userId := by
  intro m hm
  rcases h.accounted m hm with hsent | ⟨lastSeenId, left, hrun, x, hx, hu⟩
  · exact .inl hsent
  · have hne : m.run ≠ r := by
      rintro rfl
      rw [hrun] at howes
      rw [show left = [] from howes] at hx
      cases hx
    exact .inr ⟨lastSeenId, left, (move_other hne).trans hrun, x, hx, hu⟩

theorem pending_moved (h : Notified s)
    (hunsent : ∀ now lastSeenId left, phase ≠ .emitting now lastSeenId left) :
    ∀ r' now lastSeenId left, (s.move r phase).runs r' = .emitting now lastSeenId left →
      (left.map (·.row.userId)).Nodup ∧ ∀ x ∈ left, ⟨r', now, x.row.userId⟩ ∈ s.marked ∧
        ∀ message, (⟨r', now, x.row.userId⟩, message) ∉ s.sent := by
  intro r' now lastSeenId left hr'
  by_cases hr : r' = r
  · rw [hr, move_same] at hr'
    exact absurd hr' (hunsent now lastSeenId left)
  · exact h.pending r' now lastSeenId left ((move_other hr).symm.trans hr')

/-- A run that owes no message moves on to where it owes none and has read nothing. -/
theorem notified_quiet (h : Notified s) (howes : (s.runs r).unsent = []) (hread : phase.unmarked = [])
    (hunsent : ∀ now lastSeenId left, phase ≠ .emitting now lastSeenId left) :
    Notified (s.move r phase) where
  ids := h.ids
  users := h.users
  read := read_moved h hread
  exclusive := exclusive_moved h hread
  recorded := h.recorded
  spaced := h.spaced
  accounted := accounted_moved h howes
  pending := pending_moved h hunsent
  emitted := h.emitted
  once := h.once

/-- A run reads a batch that no other run has read. -/
theorem notified_read (h : Notified s) {now : Instant} {lastSeenId : Option Uuid}
    {batch : List Notice} (hrun : s.runs r = .reading now lastSeenId)
    (hnd : (batch.map (·.row.userId)).Nodup)
    (hread : ∀ x ∈ batch, x.row ∈ s.rows ∧ s.db.Unnotified now x.row.userId)
    (hcareful : ∀ x ∈ batch, ∀ r', ∀ y ∈ (s.runs r').unmarked, x.row.userId ≠ y.row.userId) :
    Notified (s.move r (.marking now batch)) where
  ids := h.ids
  users := h.users
  read := by
    intro r' now' batch' hr'
    by_cases hr : r' = r
    · rw [hr, move_same] at hr'
      cases hr'
      exact ⟨hnd, hread⟩
    · rw [move_other hr] at hr'
      exact h.read r' now' batch' hr'
  exclusive := by
    intro r₁ r₂ hne x hx y hy
    by_cases h₁ : r₁ = r
    · rw [h₁, move_same] at hx
      rw [move_other (fun h₂ => hne (h₁.trans h₂.symm))] at hy
      exact hcareful x hx r₂ y hy
    · rw [move_other h₁] at hx
      by_cases h₂ : r₂ = r
      · rw [h₂, move_same] at hy
        exact (hcareful y hy r₁ x hx).symm
      · rw [move_other h₂] at hy
        exact h.exclusive r₁ r₂ hne x hx y hy
  recorded := h.recorded
  spaced := h.spaced
  accounted := accounted_moved h (by rw [hrun]; rfl)
  pending := pending_moved h fun _ _ _ hphase => by cases hphase
  emitted := h.emitted
  once := h.once

/-- The marks of a batch. -/
def marksOf (r : Run) (now : Instant) (batch : List Notice) : List (Mark Run) :=
  batch.map fun x => { run := r, now, userId := x.row.userId }

omit [DecidableEq Run] in
theorem mem_marksOf {now : Instant} {batch : List Notice} {m : Mark Run} :
    m ∈ marksOf r now batch ↔ ∃ x ∈ batch, m = ⟨r, now, x.row.userId⟩ := by
  unfold marksOf
  rw [List.mem_map]
  exact ⟨fun ⟨x, hx, h⟩ => ⟨x, hx, h.symm⟩, fun ⟨x, hx, h⟩ => ⟨x, hx, h.symm⟩⟩

section marking
variable {now : Instant} {batch : List Notice}

omit [DecidableEq Run] in
/-- The older marks of the profiles a run is about to mark lie thirty days back. -/
theorem marks_earlier (h : Notified s) (hrun : s.runs r = .marking now batch) {m : Mark Run}
    (hm : m ∈ s.marked) {x : Notice} (hx : x ∈ batch) (hu : m.userId = x.row.userId) :
    m.now < now - NOTIFY_WINDOW := by
  obtain ⟨t, ht, hle⟩ := h.recorded m hm
  rw [hu] at ht
  exact lt_of_le_of_lt hle (((h.read r now batch hrun).2 x hx).2.2 t ht)

omit [DecidableEq Run] in
/-- What the column reads after the batch is marked. -/
theorem marked_notifiedAt (h : Notified s) (hrun : s.runs r = .marking now batch) (u : Uuid) :
    (s.db.updateMany s.rows (batch.map (·.row.id)) fun p =>
      { p with lastExpiryNotificationAt := some now }).notifiedAt u =
      if u ∈ batch.map (·.row.userId) then some now else s.db.notifiedAt u := by
  obtain ⟨-, hread⟩ := h.read r now batch hrun
  rw [mark_notifiedAt h.ids fun x hx => (hread x hx).1]
  split
  · rename_i hmem
    obtain ⟨x, hx, rfl⟩ := List.mem_map.1 hmem
    obtain ⟨p, hp⟩ := Option.isSome_iff_exists.1 (hread x hx).2.1
    rw [hp]
    rfl
  · rfl

omit [DecidableEq Run] in
theorem recorded_marked (h : Notified s) (hrun : s.runs r = .marking now batch) :
    ∀ m ∈ s.marked ++ marksOf r now batch,
      ∃ t ∈ (s.db.updateMany s.rows (batch.map (·.row.id)) fun p =>
        { p with lastExpiryNotificationAt := some now }).notifiedAt m.userId, m.now ≤ t := by
  have hwindow : now - NOTIFY_WINDOW < now := sub_lt_self now (by decide)
  intro m hm
  rw [marked_notifiedAt h hrun]
  rcases List.mem_append.1 hm with hm | hm
  · obtain ⟨t, ht, hle⟩ := h.recorded m hm
    by_cases hmem : m.userId ∈ batch.map (·.row.userId)
    · obtain ⟨x, hx, hu⟩ := List.mem_map.1 hmem
      exact ⟨now, by rw [if_pos hmem]; rfl, (marks_earlier h hrun hm hx hu.symm).le.trans hwindow.le⟩
    · exact ⟨t, by rw [if_neg hmem]; exact ht, hle⟩
  · obtain ⟨x, hx, rfl⟩ := mem_marksOf.1 hm
    exact ⟨now, by rw [if_pos (List.mem_map.2 ⟨x, hx, rfl⟩)]; rfl, le_rfl⟩

/-- What another run has read is not in the batch, and still unnotified. -/
theorem read_marked (h : Notified s) (hrun : s.runs r = .marking now batch) {phase : NotifyPhase}
    (hphase : phase.unmarked = []) (r' : Run) (now' : Instant) (batch' : List Notice)
    (hr' : (s.move r phase).runs r' = .marking now' batch') :
    (batch'.map (·.row.userId)).Nodup ∧ ∀ x ∈ batch', x.row ∈ s.rows ∧
      (s.db.updateMany s.rows (batch.map (·.row.id)) fun p =>
        { p with lastExpiryNotificationAt := some now }).Unnotified now' x.row.userId := by
  obtain ⟨hnd, hread⟩ := read_moved h hphase r' now' batch' hr'
  refine ⟨hnd, fun y hy => ⟨(hread y hy).1, mark_isSome (hread y hy).2.1, fun t ht => ?_⟩⟩
  have hne : r' ≠ r := by
    rintro rfl
    rw [move_same] at hr'
    rw [hr'] at hphase
    rw [show batch' = [] from hphase] at hy
    cases hy
  have hout : y.row.userId ∉ batch.map (·.row.userId) := by
    intro hmem
    obtain ⟨x, hx, hu⟩ := List.mem_map.1 hmem
    rw [move_other hne] at hr'
    exact h.exclusive r r' hne.symm x (by rw [hrun]; exact hx) y (by rw [hr']; exact hy) hu
  rw [marked_notifiedAt h hrun, if_neg hout] at ht
  exact (hread y hy).2.2 t ht

/-- A run marks what it has read. -/
theorem notified_marked (h : Notified s) {lastSeenId : Option Uuid}
    (hrun : s.runs r = .marking now batch) :
    Notified
      { s.move r (.emitting now lastSeenId batch) with
        db := s.db.updateMany s.rows (batch.map (·.row.id)) fun p =>
          { p with lastExpiryNotificationAt := some now }
        marked := s.marked ++ marksOf r now batch } := by
  obtain ⟨hnd, -⟩ := h.read r now batch hrun
  have hwindow : now - NOTIFY_WINDOW < now := sub_lt_self now (by decide)
  have hnew : ∀ x ∈ batch, ∀ message, ((⟨r, now, x.row.userId⟩ : Mark Run), message) ∉ s.sent := by
    intro x hx message hsent
    exact lt_asymm hwindow (marks_earlier h hrun (h.emitted _ message hsent).1 hx rfl)
  exact
    { ids := h.ids
      users := h.users
      read := read_marked h hrun rfl
      exclusive := exclusive_moved h rfl
      recorded := recorded_marked h hrun
      spaced := by
        refine List.pairwise_append.2 ⟨h.spaced, ?_, fun m hm m' hm' hu => ?_⟩
        · refine List.pairwise_map.2 ((List.pairwise_map.1 hnd).imp fun hne hu => ?_)
          exact absurd hu hne
        · obtain ⟨x, hx, rfl⟩ := mem_marksOf.1 hm'
          exact marks_earlier h hrun hm hx hu
      accounted := by
        intro m hm
        rcases List.mem_append.1 hm with hm | hm
        · exact accounted_moved h (by rw [hrun]; rfl) m hm
        · obtain ⟨x, hx, rfl⟩ := mem_marksOf.1 hm
          exact .inr ⟨lastSeenId, batch, move_same, x, hx, rfl⟩
      pending := by
        intro r' now' last left hr'
        by_cases hr : r' = r
        · rw [hr, show _ = _ from move_same] at hr'
          cases hr'
          rw [hr]
          exact ⟨hnd, fun x hx => ⟨List.mem_append_right _ (mem_marksOf.2 ⟨x, hx, rfl⟩), hnew x hx⟩⟩
        · obtain ⟨hnd', hleft⟩ := h.pending r' now' last left ((move_other hr).symm.trans hr')
          exact ⟨hnd', fun x hx => ⟨List.mem_append_left _ (hleft x hx).1, (hleft x hx).2⟩⟩
      emitted := fun m message hm =>
        ⟨List.mem_append_left _ (h.emitted m message hm).1, (h.emitted m message hm).2⟩
      once := h.once }

end marking

section emitting
variable {now : Instant} {lastSeenId : Option Uuid} {x : Notice} {left : List Notice}

omit [DecidableEq Run] in
/-- The messages about a user that were emitted lie thirty days from a mark without one. -/
theorem sent_apart (h : Notified s) {fresh : Mark Run} (hmark : fresh ∈ s.marked)
    (hfresh : ∀ message, (fresh, message) ∉ s.sent) {m : Mark Run} {message : PointsExpiring}
    (hm : (m, message) ∈ s.sent) (hu : m.userId = fresh.userId) : Apart m.now fresh.now := by
  have hne : m ≠ fresh := by
    rintro rfl
    exact hfresh message hm
  have hspaced : s.marked.Pairwise fun a b => a.userId = b.userId → Apart a.now b.now :=
    h.spaced.imp fun hab hu => apart_of_lt (hab hu)
  have : Std.Symm fun a b : Mark Run => a.userId = b.userId → Apart a.now b.now :=
    ⟨fun a b hab hu => (hab hu.symm).symm⟩
  exact hspaced.forall (h.emitted m message hm).1 hmark hne hu

/-- The message of a mark is emitted, or is still to come behind the one that is emitted now. -/
theorem accounted_emitted (h : Notified s) (hrun : s.runs r = .emitting now lastSeenId (x :: left))
    (message : PointsExpiring) : ∀ m ∈ s.marked,
    (∃ message', (m, message') ∈ s.sent ++ [(⟨r, now, x.row.userId⟩, message)]) ∨
      ∃ last left', (s.move r (if left.isEmpty then .reading now lastSeenId
        else .emitting now lastSeenId left)).runs m.run = .emitting m.now last left' ∧
        ∃ y ∈ left', y.row.userId = m.userId := by
  intro m hm
  rcases h.accounted m hm with ⟨message', hsent⟩ | ⟨last, left', hm', y, hy, hu⟩
  · exact .inl ⟨message', List.mem_append_left _ hsent⟩
  · by_cases hr : m.run = r
    · obtain ⟨r', now', u⟩ := m
      simp only at hr hu hm'
      subst hr hu
      rw [hrun] at hm'
      cases hm'
      rcases List.mem_cons.1 hy with rfl | hy
      · exact .inl ⟨_, List.mem_append_right _ (List.mem_singleton_self _)⟩
      · have hmore : left.isEmpty = false := by
          cases left with
          | nil => cases hy
          | cons z left => rfl
        refine .inr ⟨lastSeenId, left, ?_, y, hy, rfl⟩
        exact move_same.trans (by rw [hmore]; rfl)
    · exact .inr ⟨last, left', (move_other hr).trans hm', y, hy, hu⟩

theorem pending_emitted (h : Notified s) (hrun : s.runs r = .emitting now lastSeenId (x :: left))
    (message : PointsExpiring) (r' : Run) (now' : Instant) (last : Option Uuid) (left' : List Notice)
    (hr' : (s.move r (if left.isEmpty then .reading now lastSeenId
      else .emitting now lastSeenId left)).runs r' = .emitting now' last left') :
    (left'.map (·.row.userId)).Nodup ∧ ∀ y ∈ left', ⟨r', now', y.row.userId⟩ ∈ s.marked ∧
      ∀ message', (⟨r', now', y.row.userId⟩, message') ∉
        s.sent ++ [(⟨r, now, x.row.userId⟩, message)] := by
  obtain ⟨hnd, hleft⟩ := h.pending r now lastSeenId (x :: left) hrun
  have hother : ∀ {m : Mark Run}, m ≠ ⟨r, now, x.row.userId⟩ → (∀ message', (m, message') ∉ s.sent) →
      ∀ message', (m, message') ∉ s.sent ++ [(⟨r, now, x.row.userId⟩, message)] := by
    intro m hne hnot message' hmem
    rcases List.mem_append.1 hmem with hmem | hmem
    · exact hnot message' hmem
    · exact hne (congrArg Prod.fst (List.mem_singleton.1 hmem))
  by_cases hr : r' = r
  · subst hr
    rw [move_same] at hr'
    split at hr'
    · cases hr'
    · cases hr'
      obtain ⟨hx, hnd'⟩ := List.nodup_cons.1 hnd
      refine ⟨hnd', fun y hy => ⟨(hleft y (List.mem_cons_of_mem _ hy)).1, ?_⟩⟩
      refine hother (fun heq => ?_) (hleft y (List.mem_cons_of_mem _ hy)).2
      exact hx (List.mem_map.2 ⟨y, hy, congrArg Mark.userId heq⟩)
  · obtain ⟨hnd', hleft'⟩ := h.pending r' now' last left' ((move_other hr).symm.trans hr')
    refine ⟨hnd', fun y hy => ⟨(hleft' y hy).1, ?_⟩⟩
    exact hother (fun heq => hr (congrArg Mark.run heq)) (hleft' y hy).2

/-- A run emits the next message: it is the only one of its mark. -/
theorem notified_emitted (h : Notified s) (hrun : s.runs r = .emitting now lastSeenId (x :: left)) :
    Notified
      { s.move r (if left.isEmpty then .reading now lastSeenId else .emitting now lastSeenId left) with
        sent := s.sent ++
          [({ run := r, now, userId := x.row.userId }, pointsExpiring x.row.userId x.profile)] } := by
  obtain ⟨-, hleft⟩ := h.pending r now lastSeenId (x :: left) hrun
  obtain ⟨hmark, hfresh⟩ := hleft x (List.mem_cons_self ..)
  have hunmarked : (if left.isEmpty then NotifyPhase.reading now lastSeenId
      else .emitting now lastSeenId left).unmarked = [] := by
    split <;> rfl
  exact
    { ids := h.ids
      users := h.users
      read := read_moved h hunmarked
      exclusive := exclusive_moved h hunmarked
      recorded := h.recorded
      spaced := h.spaced
      accounted := accounted_emitted h hrun _
      pending := pending_emitted h hrun _
      emitted := by
        intro m message hm
        rcases List.mem_append.1 hm with hm | hm
        · exact h.emitted m message hm
        · cases List.mem_singleton.1 hm
          exact ⟨hmark, rfl⟩
      once := by
        refine List.pairwise_append.2 ⟨h.once, List.pairwise_singleton _ _, fun a ha b hb hu => ?_⟩
        cases List.mem_singleton.1 hb
        exact sent_apart h hmark hfresh ha hu }

end emitting

theorem notified_step {batchSize : ℕ} {a : NotifyAction Run} {s' : NotifyState Run}
    (hok : Careful batchSize a s) (hs : notifyStep batchSize a s = some s') (h : Notified s) :
    Notified s' := by
  cases a with
  | create row =>
    simp only [notifyStep, Option.ite_none_right_eq_some, Option.some.injEq] at hs
    obtain ⟨⟨hid, huser⟩, rfl⟩ := hs
    refine notified_db h ?_ ?_ (fun _ hr => List.mem_append_left _ hr)
      (fun _ hsome => ensure_isSome _ hsome) (fun u => ensure_notifiedAt _ u)
    · rw [List.map_append, List.map_singleton, ← List.concat_eq_append]
      exact h.ids.concat hid
    · rw [List.map_append, List.map_singleton, ← List.concat_eq_append]
      exact h.users.concat huser
  | write userId data =>
    obtain ⟨p, hp, rfl⟩ := Option.map_eq_some_iff.1 hs
    exact notified_db h h.ids h.users (fun _ hr => hr) (fun _ hsome => write_isSome hsome)
      (fun u => write_notifiedAt data hp u)
  | start r now =>
    simp only [notifyStep] at hs
    split at hs <;> cases hs
    rename_i hrun
    exact notified_quiet h (by rw [hrun]; rfl) rfl (fun _ _ _ h => by cases h)
  | select r =>
    simp only [notifyStep] at hs
    split at hs <;> cases hs
    rename_i now lastSeenId hrun
    split
    · exact notified_quiet h (by rw [hrun]; rfl) rfl (fun _ _ _ h => by cases h)
    · exact notified_read h hrun (expiringBatch_nodup h.ids h.users)
        (fun x hx => mem_expiringBatch hx) (hok now lastSeenId hrun)
  | mark r =>
    simp only [notifyStep] at hs
    split at hs <;> cases hs
    rename_i now batch hrun
    exact notified_marked h hrun
  | emit r =>
    simp only [notifyStep] at hs
    split at hs <;> cases hs
    rename_i now lastSeenId x left hrun
    exact notified_emitted h hrun
  | crash r =>
    simp only [notifyStep] at hs
    split at hs <;> cases hs
    exact notified_quiet h hok rfl (fun _ _ _ h => by cases h)

/-- Whether a step of finitely many runs is careful can be decided. -/
instance [Fintype Run] (batchSize : ℕ) (a : NotifyAction Run) (s : NotifyState Run) :
    Decidable (Careful batchSize a s) :=
  match a with
  | .select r =>
    match hrun : s.runs r with
    | .reading now lastSeenId =>
      decidable_of_iff (∀ x ∈ s.db.expiringBatch s.rows batchSize now lastSeenId, ∀ r',
          ∀ y ∈ (s.runs r').unmarked, x.row.userId ≠ y.row.userId) <| by
        simp [Careful, hrun]
    | .idle | .marking .. | .emitting .. | .over => isTrue (by simp [Careful, hrun])
  | .crash r => inferInstanceAs (Decidable ((s.runs r).unsent = []))
  | .create _ | .write .. | .start .. | .mark _ | .emit _ => isTrue trivial

end steps

/-- In a run whose steps are all careful, whatever the interleaving: a profile that a run has marked
    has had its message emitted by that run, or the run is still going and has it to emit; and any
    two messages about one user come from runs whose clock readings lie more than thirty days
    apart. -/
theorem notifications_kept {Run : Type} [DecidableEq Run] {rows : List ProfileKey} {db : DB}
    (hrows : db.Lists rows) {batchSize : ℕ} {s : NotifyState Run}
    (hr : (notifications rows batchSize db).ReachedBy (Careful batchSize) s) :
    (∀ m ∈ s.marked, (∃ message, (m, message) ∈ s.sent ∧ message.userId = m.userId) ∨
      ∃ x ∈ (s.runs m.run).unsent, x.row.userId = m.userId) ∧
    s.sent.Pairwise fun a b => a.2.userId = b.2.userId → Apart a.1.now b.1.now := by
  have hfirst : Notified (@notifications Run _ rows batchSize db).first :=
    { ids := hrows.ids
      users := hrows.users
      read := fun _ _ _ h => by cases h
      exclusive := fun _ _ _ _ hx => by cases hx
      recorded := fun _ hm => by cases hm
      spaced := .nil
      accounted := fun _ hm => by cases hm
      pending := fun _ _ _ _ h => by cases h
      emitted := fun _ _ hm => by cases hm
      once := .nil }
  have hkept : Notified s := hr.invariant hfirst fun hok hs h => notified_step hok hs h
  refine ⟨fun m hm => ?_, ?_⟩
  · rcases hkept.accounted m hm with ⟨message, hsent⟩ | ⟨lastSeenId, left, hrun, x, hx, hu⟩
    · exact .inl ⟨message, hsent, (hkept.emitted m message hsent).2⟩
    · exact .inr ⟨x, by rw [hrun]; exact hx, hu⟩
  · have hsame : ∀ a ∈ s.sent, a.2.userId = a.1.userId := fun a ha => (hkept.emitted a.1 a.2 ha).2
    exact hkept.once.imp_of_mem fun ha hb hab hu => hab (by rw [← hsame _ ha, ← hsame _ hb, hu])

/-- While one run has the third profile read, its user spends the points, and another run reads the
    second. Both mark and emit what they read; the first then finds the profile left. -/
theorem notifications_kept_overlapping : ∃ s : NotifyState Bool,
    (notifications threeRows 1 DB.three).ReachedBy (Careful 1) s ∧
      (s.marked.map fun m => (m.run, m.userId)) = [(true, .third), (false, .second), (true, .nil)] ∧
      (∀ m ∈ s.marked, ∃ message, (m, message) ∈ s.sent ∧ message.userId = m.userId) ∧
      s.sent.Pairwise fun a b => a.2.userId = b.2.userId → Apart a.1.now b.1.now := by
  obtain ⟨s, hreach, hs⟩ := (notifications threeRows 1 DB.three).reachedBy_of_exec (Careful 1)
    [.start true 0, .select true, .write .third fun p => { p with balance := 0 }, .start false 0,
      .select false, .mark true, .mark false, .emit true, .select true, .emit false, .mark true,
      .select false, .emit true]
    (fun s => decide ((s.marked.map fun m => (m.run, m.userId)) =
        [(true, .third), (false, .second), (true, .nil)]) &&
      (s.runs true).unsent.isEmpty && (s.runs false).unsent.isEmpty) (by decide +kernel)
  simp only [Bool.and_eq_true, decide_eq_true_iff, List.isEmpty_iff] at hs
  obtain ⟨hkept, hspaced⟩ := notifications_kept three_lists hreach
  refine ⟨s, hreach, hs.1.1, fun m hm => ?_, hspaced⟩
  rcases hkept m hm with hsent | ⟨x, hx, -⟩
  · exact hsent
  · cases hr : m.run <;> rw [hr] at hx <;> simp [hs] at hx

/-- One profile, whose balance expires at the epoch. -/
def DB.lone : DB :=
  { DB.empty with
    profiles := fun u =>
      if u = Uuid.nil then some { balance := 200, balanceExpiresAt := some 0 } else none }

/-- A run that dies after marking loses the message; two runs that read the profile before either
    has marked it emit two. -/
theorem notifications_lost_and_repeated :
    (∃ s : NotifyState Bool, (notifications [⟨Uuid.nil, Uuid.nil⟩] 1 DB.lone).Reached s ∧
      ∃ m ∈ s.marked, (∀ message, (m, message) ∉ s.sent) ∧ (s.runs m.run).unsent = []) ∧
    ∃ s : NotifyState Bool, (notifications [⟨Uuid.nil, Uuid.nil⟩] 1 DB.lone).Reached s ∧
      ¬s.sent.Pairwise fun a b => a.2.userId = b.2.userId → Apart a.1.now b.1.now := by
  constructor
  · obtain ⟨s, hreach, hs⟩ := (notifications [⟨Uuid.nil, Uuid.nil⟩] 1 DB.lone).reached_of_exec
      [.start true 0, .select true, .mark true, .crash true]
      (fun s => s.marked.any (fun m => (s.runs m.run).unsent.isEmpty) && s.sent.isEmpty)
      (by decide +kernel)
    simp only [Bool.and_eq_true, List.any_eq_true, List.isEmpty_iff] at hs
    obtain ⟨⟨m, hm, hdone⟩, hsent⟩ := hs
    exact ⟨s, hreach, m, hm, by simp [hsent], hdone⟩
  · obtain ⟨s, hreach, hs⟩ := (notifications [⟨Uuid.nil, Uuid.nil⟩] 1 DB.lone).reached_of_exec
      [.start true 0, .start false 0, .select true, .select false, .mark true, .emit true,
        .mark false, .emit false]
      (fun s => decide ((s.sent.map fun a => (a.2.userId, a.1.now)) = [(Uuid.nil, 0), (Uuid.nil, 0)]))
      (by decide +kernel)
    refine ⟨s, hreach, fun hpairs => ?_⟩
    have htimes : (s.sent.map fun a => (a.2.userId, a.1.now)).Pairwise fun p q =>
        p.1 = q.1 → Apart p.2 q.2 := List.pairwise_map.2 hpairs
    rw [of_decide_eq_true hs] at htimes
    have hsame : Apart 0 0 := (List.pairwise_cons.1 htimes).1 _ (List.mem_singleton_self _) rfl
    exact absurd hsame (by unfold Apart; decide)

end CinemaLoyalty
