import CinemaLoyalty.Intents.Rows
import CinemaLoyalty.Lib.Transition
import CinemaLoyalty.Markers
import CinemaLoyalty.Purchases

/-! @svc AchievementPipeline | layer:system | source:src/achievements/processors/achievements.processor.ts, src/achievements/achievement-intent-publisher.service.ts, src/achievements/achievements.service.ts, src/loyalty/loyalty.service.ts (processTicketPurchase)

    From the ticket to the achievement. A purchase stores its events as intents, a stored intent is
    handed to the workers any number of times and in any order, and a worker tries the achievements
    that matched when it began, one transaction each, while other jobs, admins and the rest of the
    service write to the same database. Progress still comes from committed purchases and nothing
    else, each order counted once, and no event whose marker is set is missing
    (`progress_from_purchases`). -/

namespace CinemaLoyalty
open Txn Transition

/-! ### Machine -/

/-- A job that a worker runs: its event, and the matching achievements it has yet to try. -/
structure WorkerJob where
  event : ActionEvent
  remaining : List Achievement

/-- The job of a stored intent: `publish` parses the payload, `dispatchEvent` and the worker parse
    the event again. -/
def DB.intentJob (db : DB) (key : Uuid × String × AchievementAction) : Option WorkerJob := do
  let intent ← db.achievementDispatchIntents key
  let event ← ActionEvent.ofJson intent.payload
  let validEvent ← event.parse
  let event ← validEvent.parse
  return { event, remaining := db.matchingAchievements event.actionType }

/-- The database with the purchases committed so far, every definition there was, and the jobs that
    run. -/
structure Pipeline where
  history : History
  versions : List Achievement
  jobs : List WorkerJob

/-- An operation of the service. -/
def Pipeline.perform (p : Pipeline) (op : Op) : Pipeline :=
  { p with
    history := p.history.step op
    versions := p.versions ++ (op.exec p.history.db).achievements }

/-- An operation that is no step of a job. -/
def Op.isQuiet : Op → Bool
  | .call (.processAchievement _ _) _ => false
  | _ => true

/-- What happens: the rest of the service does something; a worker begins the job of a stored intent;
    the transaction of a job's next achievement runs, or fails from outside; a worker is gone. -/
inductive PipelineAction
  | operate (op : Op)
  | begin (key : Uuid × String × AchievementAction)
  | run (i : ℕ) (now : Instant)
  | fail (i : ℕ)
  | gone (i : ℕ)

def Pipeline.step : PipelineAction → Pipeline → Option Pipeline
  | .operate op, p => if op.isQuiet then some (p.perform op) else none
  | .begin key, p => (p.history.db.intentJob key).map fun job => { p with jobs := p.jobs ++ [job] }
  | .run i now, p =>
    match p.jobs[i]? with
    | some ⟨event, achievement :: remaining⟩ =>
      some
        { p.perform (.call (.processAchievement event achievement) now) with
          jobs := p.jobs.set i ⟨event, remaining⟩ }
    | _ => none
  | .fail i, p =>
    match p.jobs[i]? with
    | some ⟨event, _ :: remaining⟩ => some { p with jobs := p.jobs.set i ⟨event, remaining⟩ }
    | _ => none
  | .gone i, p => some { p with jobs := p.jobs.eraseIdx i }

/-- No purchases and no jobs. -/
def pipeline : System Pipeline PipelineAction where
  first := ⟨.start, [], []⟩
  step := Pipeline.step

/-- A step, by what it changes. -/
inductive Pipeline.Stepped (p : Pipeline) : Pipeline → Prop
  | operates {op : Op} (hop : op.isQuiet = true) : Stepped p (p.perform op)
  | begins {key : Uuid × String × AchievementAction} {job : WorkerJob}
      (hjob : p.history.db.intentJob key = some job) : Stepped p { p with jobs := p.jobs ++ [job] }
  | runs {i : ℕ} {event : ActionEvent} {achievement : Achievement} {remaining : List Achievement}
      {now : Instant} (hjob : ⟨event, achievement :: remaining⟩ ∈ p.jobs) :
      Stepped p
        { p.perform (.call (.processAchievement event achievement) now) with
          jobs := p.jobs.set i ⟨event, remaining⟩ }
  | fails {i : ℕ} {event : ActionEvent} {achievement : Achievement} {remaining : List Achievement}
      (hjob : ⟨event, achievement :: remaining⟩ ∈ p.jobs) :
      Stepped p { p with jobs := p.jobs.set i ⟨event, remaining⟩ }
  | goes (i : ℕ) : Stepped p { p with jobs := p.jobs.eraseIdx i }

theorem pipeline_cases {p p' : Pipeline} {a : PipelineAction} (h : p.step a = some p') :
    p.Stepped p' := by
  cases a with
  | operate op =>
    simp only [Pipeline.step, Option.ite_none_right_eq_some, Option.some.injEq] at h
    obtain ⟨hop, rfl⟩ := h
    exact .operates hop
  | begin key =>
    obtain ⟨job, hjob, rfl⟩ := Option.map_eq_some_iff.1 h
    exact .begins hjob
  | run i now =>
    simp only [Pipeline.step] at h
    split at h
    · rename_i hjob
      obtain rfl := Option.some.inj h
      exact .runs (List.mem_of_getElem? hjob)
    · exact absurd h (Option.some_ne_none _).symm
  | fail i =>
    simp only [Pipeline.step] at h
    split at h
    · rename_i hjob
      obtain rfl := Option.some.inj h
      exact .fails (List.mem_of_getElem? hjob)
    · exact absurd h (Option.some_ne_none _).symm
  | gone i =>
    obtain rfl := Option.some.inj h
    exact .goes i

/-! ### A job left alone -/

section alone
variable {p : Pipeline} {event : ActionEvent} {now : Instant} {aborts : Achievement → Option TxError}

theorem exec_job (event : ActionEvent) (achievement : Achievement) (now : Instant) (db : DB) :
    Op.exec db (.call (.processAchievement event achievement) now) =
      (db.transaction (processAchievementJob event achievement now)).2 := by
  simp only [Op.exec]
  rcases exec_cases (.processAchievement event achievement) now db with ⟨e, hr, hx⟩ | ⟨r, y, hr, hx⟩
  · have hinner := run_wrap_error hr
    rcases transaction_cases (processAchievementJob event achievement now) db with
      ⟨e', -, ht⟩ | ⟨r, y, hy, -⟩
    · rw [hx, ht]
    · rw [hinner] at hy
      cases hy
  · obtain ⟨r, hinner, -⟩ := run_wrap hr
    rcases transaction_cases (processAchievementJob event achievement now) db with
      ⟨e', hy, -⟩ | ⟨r', y', hy, ht⟩
    · rw [hinner] at hy
      cases hy
    · rw [hinner] at hy
      cases hy
      rw [hx, ht]

theorem processEach_next (achievement : Achievement) (remaining : List Achievement) (db : DB) :
    (processEach event now aborts (achievement :: remaining) db).2 =
      (processEach event now aborts remaining (processOne event now aborts achievement db).2).2 := by
  rw [processEach]
  generalize processOne event now aborts achievement db = answer
  obtain ⟨r, db'⟩ := answer
  cases r <;> rfl

/-- A job whose turns follow each other ends as the loop of `process`. -/
theorem leads_processEach {i : ℕ} {remaining : List Achievement}
    (hjob : p.jobs[i]? = some ⟨event, remaining⟩) : ∃ p', pipeline.Leads p p' ∧
      p'.history.db = (processEach event now aborts remaining p.history.db).2 := by
  induction remaining generalizing p with
  | nil => exact ⟨p, .refl, rfl⟩
  | cons achievement remaining ih =>
    have hset : (p.jobs.set i ⟨event, remaining⟩)[i]? = some ⟨event, remaining⟩ := by
      rw [List.getElem?_set_self']
      rw [hjob]
      rfl
    rw [processEach_next]
    unfold processOne
    cases haborts : aborts achievement with
    | some e =>
      obtain ⟨p', hleads, hdb⟩ := ih (p := { p with jobs := p.jobs.set i ⟨event, remaining⟩ }) hset
      refine ⟨p', .head ⟨.fail i, trivial, ?_⟩ hleads, hdb⟩
      simp only [pipeline, Pipeline.step, hjob]
    | none =>
      simp only
      rw [← exec_job]
      generalize hop : Op.call (.processAchievement event achievement) now = op
      obtain ⟨p', hleads, hdb⟩ :=
        ih (p := { p.perform op with jobs := p.jobs.set i ⟨event, remaining⟩ }) hset
      refine ⟨p', .head ⟨.run i now, trivial, ?_⟩ hleads, hdb⟩
      simp only [pipeline, Pipeline.step, hjob, hop]

/-- A job that is left alone is `process`. -/
theorem leads_process {key : Uuid × String × AchievementAction} {job : WorkerJob}
    (hjob : p.history.db.intentJob key = some job) : ∃ p', pipeline.Leads p p' ∧
      p'.history.db = (process job.event now aborts p.history.db).2 := by
  have hlast : (p.jobs ++ [job])[p.jobs.length]? = some ⟨job.event, job.remaining⟩ :=
    List.getElem?_concat_length
  obtain ⟨p', hleads, hdb⟩ := leads_processEach (p := { p with jobs := p.jobs ++ [job] }) hlast
  refine ⟨p', .head ⟨.begin key, trivial, ?_⟩ hleads, ?_⟩
  · simp only [pipeline, Pipeline.step, hjob, Option.map_some]
  · unfold DB.intentJob at hjob
    simp only [Option.bind_eq_bind, Option.bind_eq_some_iff] at hjob
    obtain ⟨_, _, _, _, validEvent, _, event, hevent, hjob⟩ := hjob
    obtain rfl := Option.some.inj hjob
    rw [hdb]
    unfold process
    rw [parse_parsed hevent]
    simp only
    split <;> rename_i heq <;> rw [heq]

end alone

/-! ### Where events come from -/

/-- The event is one of the purchase's, as the schema returns it, for some points that its transaction
    found used. -/
def TicketPurchasedDto.Raises (m : TicketPurchasedDto) (event : ActionEvent) : Prop :=
  ∃ pointsUsed, ∃ raised ∈ purchaseEvents m pointsUsed, raised.parse = some event

/-- The intent of a purchase's event is stored, with the event as its payload. -/
def DB.Stores (db : DB) (m : TicketPurchasedDto) (event : ActionEvent) : Prop :=
  db.achievementDispatchIntents (m.userId.value, event.eventId, event.actionType) =
    some ⟨event.toJson⟩

section raised
variable {m : TicketPurchasedDto} {event raised : ActionEvent} {pointsUsed : ℤ}

theorem parse_fields_kept (h : raised.parse = some event) : event.eventId = jsTrim raised.eventId ∧
    event.userId = raised.userId ∧ event.actionType = raised.actionType := by
  unfold ActionEvent.parse at h
  simp only [Option.ite_none_right_eq_some, Option.some.injEq] at h
  obtain ⟨-, rfl⟩ := h
  exact ⟨rfl, rfl, rfl⟩

theorem TicketPurchasedDto.Raises.parsed (h : m.Raises event) : event.parse = some event := by
  obtain ⟨_, _, -, hparse⟩ := h
  exact parse_parsed hparse

/-- The schema gives the stored event back. -/
theorem TicketPurchasedDto.Raises.stored (h : m.Raises event) :
    ActionEvent.ofJson event.toJson = some event := by
  obtain ⟨_, _, -, hparse⟩ := h
  exact ofJson_toJson hparse

/-- It names the user of the purchase. -/
theorem TicketPurchasedDto.Raises.user (h : m.Raises event) :
    Uuid.ofText event.userId = some m.userId.value := by
  obtain ⟨_, raised, hraised, hparse⟩ := h
  rw [(parse_fields_kept hparse).2.1]
  unfold purchaseEvents at hraised
  rcases List.mem_cons.1 hraised with rfl | hraised
  · exact m.userId.named
  · split at hraised
    · obtain rfl := List.mem_singleton.1 hraised
      exact m.userId.named
    · cases hraised

/-- The id of an order's event of an action. -/
def orderEventId (orderId : String) : AchievementAction → String
  | .VIP_SEAT_BOUGHT => jsTrim (orderId ++ "_vip")
  | _ => jsTrim orderId

/-- Its id follows from the order and the action. -/
theorem TicketPurchasedDto.Raises.eventId (h : m.Raises event) :
    event.eventId = orderEventId m.orderId.text event.actionType := by
  obtain ⟨_, raised, hraised, hparse⟩ := h
  obtain ⟨hid, -, haction⟩ := parse_fields_kept hparse
  rw [hid, haction]
  unfold purchaseEvents at hraised
  rcases List.mem_cons.1 hraised with rfl | hraised
  · rfl
  · split at hraised
    · obtain rfl := List.mem_singleton.1 hraised
      rfl
    · cases hraised

end raised

/-- The rows of `saveDispatchIntents` are the parsed events. -/
theorem intentRows_parsed_events {events : List ActionEvent}
    {rows : List (String × AchievementAction × Json)} (h : intentRows events = .pure rows) :
    ∀ r ∈ rows, ∃ raised ∈ events, ∃ event, raised.parse = some event ∧
      r = (event.eventId, event.actionType, event.toJson) := by
  induction events generalizing rows with
  | nil =>
    cases h
    exact fun r hr => (List.not_mem_nil hr).elim
  | cons raised events ih =>
    unfold intentRows at h
    cases hparse : raised.parse with
    | none => rw [hparse] at h; cases h
    | some event =>
      rw [hparse] at h
      rcases intentRows_final events with ⟨rest, hrest⟩ | ⟨e, hrest⟩
      · simp only [hrest, Prog.pure_bind] at h
        cases h
        intro r hr
        rcases List.mem_cons.1 hr with rfl | hr
        · exact ⟨raised, List.mem_cons_self .., event, hparse, rfl⟩
        · obtain ⟨raised', hmem, hrest'⟩ := ih hrest r hr
          exact ⟨raised', List.mem_cons_of_mem _ hmem, hrest'⟩
      · simp only [hrest, Prog.throw_bind] at h
        cases h

/-- An intent after a `createMany` was there before or is one of the rows. -/
theorem intents_stored {db : DB} {u : Uuid} {rows : List (String × AchievementAction × Json)}
    {key : Uuid × String × AchievementAction} {intent : AchievementDispatchIntent}
    (h : (db.withIntents u rows).achievementDispatchIntents key = some intent) :
    db.achievementDispatchIntents key = some intent ∨
      ∃ r ∈ rows, key = (u, r.1, r.2.1) ∧ intent.payload = r.2.2 := by
  have hview : ∀ (new : List (String × AchievementAction × Json)) (x : DB),
      (pg.view x (new.map fun r => .intent u r.1 r.2.1 ⟨r.2.2⟩)).achievementDispatchIntents key =
        some intent → x.achievementDispatchIntents key = some intent ∨
          ∃ r ∈ new, key = (u, r.1, r.2.1) ∧ intent.payload = r.2.2 := by
    intro new
    induction new with
    | nil => exact fun x hx => .inl hx
    | cons r new ih =>
      intro x hx
      rw [List.map_cons, pg.view_cons] at hx
      rcases ih _ hx with hold | ⟨r', hr', hrest⟩
      · by_cases hkey : key = (u, r.1, r.2.1)
        · have hself : (pg.apply x (.intent u r.1 r.2.1 ⟨r.2.2⟩)).achievementDispatchIntents key =
              (x.achievementDispatchIntents key).or (some ⟨r.2.2⟩) := by
            rw [hkey]
            exact Function.update_self ..
          rw [hself] at hold
          cases hx' : x.achievementDispatchIntents key with
          | some i =>
            rw [hx'] at hold
            exact .inl hold
          | none =>
            rw [hx'] at hold
            cases hold
            exact .inr ⟨r, List.mem_cons_self .., hkey, rfl⟩
        · have hother : (pg.apply x (.intent u r.1 r.2.1 ⟨r.2.2⟩)).achievementDispatchIntents key =
              x.achievementDispatchIntents key := Function.update_of_ne hkey ..
          exact .inl (hother ▸ hold)
      · exact .inr ⟨r', List.mem_cons_of_mem _ hr', hrest⟩
  unfold DB.withIntents at h
  rcases hview _ _ h with h | ⟨r, hr, hrest⟩
  · exact .inl h
  · exact .inr ⟨r, List.mem_of_mem_filter hr, hrest⟩

/-- A `createMany` leaves the intents that are there. -/
theorem withIntents_kept {db : DB} {u : Uuid} {rows : List (String × AchievementAction × Json)}
    {key : Uuid × String × AchievementAction} {intent : AchievementDispatchIntent}
    (h : db.achievementDispatchIntents key = some intent) :
    (db.withIntents u rows).achievementDispatchIntents key = some intent := by
  unfold DB.withIntents
  generalize rows.filter _ = new
  induction new generalizing db with
  | nil => exact h
  | cons r new ih =>
    rw [List.map_cons, pg.view_cons]
    refine ih ?_
    by_cases hkey : key = (u, r.1, r.2.1)
    · subst hkey
      exact (Function.update_self ..).trans (by rw [h]; rfl)
    · exact (Function.update_of_ne hkey ..).trans h

/-! ### What counts -/

/-- A purchase's event that an achievement, as a worker had read it, counts as `n`. -/
structure Contribution where
  purchase : TicketPurchasedDto
  event : ActionEvent
  achievement : Achievement
  n : ℤ

/-- It is of a committed purchase of the user, whose event is the payload of a stored intent and matched
    the definition of its time. -/
structure Contribution.Of (h : History) (versions : List Achievement) (u a : Uuid)
    (c : Contribution) : Prop where
  committed : c.purchase ∈ h.purchases
  user : c.purchase.userId.value = u
  raised : c.purchase.Raises c.event
  stored : h.db.Stores c.purchase c.event
  version : c.achievement ∈ versions
  achievement : c.achievement.id = a
  matched : c.achievement.matches c.event.actionType = true
  counted : c.achievement.amount? c.event = some c.n
  marked : h.db.seen (uniqueProcessId c.event.eventId c.achievement) = true

/-- What has counted for each user and achievement: all progress, and every event whose marker is set
    unless its achievement was unlocked before. -/
structure Ledger (h : History) (versions : List Achievement)
    (ledger : Uuid → Uuid → List Contribution) : Prop where
  of : ∀ u a, ∀ c ∈ ledger u a, c.Of h versions u a
  once : ∀ u a, ((ledger u a).map (·.event.eventId)).Nodup
  started : ∀ u a row, h.db.userAchievements (u, a) = some row → ledger u a ≠ []
  counts : ∀ u a, (h.db.userAchievements (u, a)).elim 0 (·.current) = ((ledger u a).map (·.n)).sum
  spent : ∀ k achievement e, h.db.processedEvents (uniqueProcessId k achievement) = some e →
    e.operation = none → ∃ m ∈ h.purchases, ∃ event, m.Raises event ∧ event.eventId = k ∧
      ((∃ c ∈ ledger m.userId.value achievement.id, c.event.eventId = k) ∨
        (h.db.userAchievements (m.userId.value, achievement.id)).any (·.isUnlocked) = true)

/-- Intents, jobs and progress stand for committed purchases. -/
structure Sourced (p : Pipeline) : Prop where
  intents : ∀ key intent, p.history.db.achievementDispatchIntents key = some intent →
    ∃ m ∈ p.history.purchases, ∃ event, m.Raises event ∧ intent.payload = event.toJson ∧
      key = (m.userId.value, event.eventId, event.actionType)
  versions : ∀ a ∈ p.history.db.achievements, a ∈ p.versions
  jobs : ∀ job ∈ p.jobs,
    (∃ m ∈ p.history.purchases, m.Raises job.event ∧ p.history.db.Stores m job.event) ∧
      ∀ a ∈ job.remaining, a ∈ p.versions ∧ a.matches job.event.actionType = true
  progress : ∃ ledger, Ledger p.history p.versions ledger
  consistent : p.history.db.ProgressConsistent

section steps
variable {h : History} {op : Op} {u a : Uuid}

theorem seen_kept {k : String} (hseen : h.db.seen k = true) : (h.step op).db.seen k = true := by
  obtain ⟨e, he⟩ := Option.isSome_iff_exists.1 hseen
  exact Option.isSome_iff_exists.2 ⟨e, act_keeps he (.operate op)⟩

theorem purchases_kept {m : TicketPurchasedDto} (hm : m ∈ h.purchases) : m ∈ (h.step op).purchases :=
  List.mem_append_left _ hm

/-- Every operation leaves the intents that are there. -/
theorem stores_kept {m : TicketPurchasedDto} {event : ActionEvent} (hs : h.db.Stores m event) :
    (h.step op).db.Stores m event := by
  unfold DB.Stores at hs ⊢
  have hstep : PurchaseStep h.db op := op_purchase op
  cases hstep with
  | other _ hsame _ => exact (congrFun hsame _).trans hs
  | @committed msg now n rows _ _ _ _ he =>
    have hnew : (h.step op).db = (h.db.purchased msg n now).withIntents msg.userId.value rows := he
    have hbefore : (h.db.purchased msg n now).achievementDispatchIntents =
        h.db.achievementDispatchIntents := by
      by_cases hpos : n > 0 <;> simp [DB.purchased, DB.credited, hpos, DB.post]
    rw [hnew]
    exact withIntents_kept (hbefore ▸ hs)

theorem Contribution.Of.kept {versions added : List Achievement} {c : Contribution}
    (hc : c.Of h versions u a) : c.Of (h.step op) (versions ++ added) u a :=
  { hc with
    committed := purchases_kept hc.committed
    stored := stores_kept hc.stored
    version := List.mem_append_left _ hc.version
    marked := seen_kept hc.marked }

/-- New intents come from the purchase that commits. -/
theorem intents_sourced (hi : ∀ key intent, h.db.achievementDispatchIntents key = some intent →
      ∃ m ∈ h.purchases, ∃ event, m.Raises event ∧ intent.payload = event.toJson ∧
        key = (m.userId.value, event.eventId, event.actionType))
    {key : Uuid × String × AchievementAction} {intent : AchievementDispatchIntent}
    (hkey : (h.step op).db.achievementDispatchIntents key = some intent) :
    ∃ m ∈ (h.step op).purchases, ∃ event, m.Raises event ∧ intent.payload = event.toJson ∧
      key = (m.userId.value, event.eventId, event.actionType) := by
  have hold : h.db.achievementDispatchIntents key = some intent →
      ∃ m ∈ (h.step op).purchases, ∃ event, m.Raises event ∧ intent.payload = event.toJson ∧
        key = (m.userId.value, event.eventId, event.actionType) := by
    intro hkey
    obtain ⟨m, hm, hrest⟩ := hi key intent hkey
    exact ⟨m, purchases_kept hm, hrest⟩
  have hstep : PurchaseStep h.db op := op_purchase op
  cases hstep with
  | other _ hsame _ => exact hold (by rw [← hsame]; exact hkey)
  | @committed msg now n rows _ hc _ hrows he =>
    have hnew : (h.step op).db = (h.db.purchased msg n now).withIntents msg.userId.value rows := he
    rw [hnew] at hkey
    rcases intents_stored hkey with hkey | ⟨r, hr, hrow, hpayload⟩
    · refine hold ?_
      rw [← hkey]
      by_cases hpos : n > 0 <;> simp [DB.purchased, DB.credited, hpos, DB.post]
    · obtain ⟨raised, hraised, event, hparse, rfl⟩ := intentRows_parsed_events hrows r hr
      refine ⟨msg, ?_, event, ⟨_, raised, hraised, hparse⟩, hpayload, hrow⟩
      simp [History.step, hc]

theorem quiet_progress {db : DB} (hop : op.isQuiet = true) :
    (op.exec db).userAchievements = db.userAchievements := by
  rcases op_progress op db with ⟨event, achievement, now, v, rfl, -⟩ | ⟨hp, -⟩
  · cases hop
  · exact hp

/-- Only jobs write markers of the worker. -/
theorem quiet_marks {db : DB} (hop : op.isQuiet = true) {k : String} {achievement : Achievement}
    {e : ProcessedEvent} (he : (op.exec db).processedEvents (uniqueProcessId k achievement) = some e)
    (ho : e.operation = none) : db.processedEvents (uniqueProcessId k achievement) = some e := by
  rcases op_marks he ho with hold | ⟨c, now, rfl, hmarks⟩
  · exact hold
  cases c with
  | processTicketPurchase msg => exact absurd hmarks.symm (processId_not_uuid msg.eventId k achievement)
  | processAchievement _ _ => cases hop
  | _ => exact hmarks.elim

/-- What a transaction of a job does to progress and markers. -/
inductive JobOutcome (db : DB) (event : ActionEvent) (u : Uuid) (achievement : Achievement)
    (now : Instant) : DB → Prop
  | idle {db' : DB} (hp : db'.userAchievements = db.userAchievements)
      (hm : db'.processedEvents = db.processedEvents) : JobOutcome db event u achievement now db'
  | swallowed {row : UserAchievement} (hrow : db.userAchievements (u, achievement.id) = some row)
      (hu : row.isUnlocked = true) :
      JobOutcome db event u achievement now (db.marked u (uniqueProcessId event.eventId achievement))
  | counted {n : ℤ} (hamount : achievement.amount? event = some n)
      (hnew : db.processedEvents (uniqueProcessId event.eventId achievement) = none)
      (hlocked : (db.userAchievements (u, achievement.id)).any (·.isUnlocked) = false) :
      JobOutcome db event u achievement now
        (db.counted event.eventId u achievement achievement.target n now)

theorem job_outcome (db : DB) {event : ActionEvent} (achievement : Achievement) (now : Instant)
    (hparse : event.parse = some event) (hnamed : Uuid.ofText event.userId = some u) :
    JobOutcome db event u achievement now
      (Op.exec db (.call (.processAchievement event achievement) now)) := by
  simp only [Op.exec]
  rcases exec_cases (.processAchievement event achievement) now db with ⟨e, -, hx⟩ | ⟨r, y, hr, hx⟩
  · rw [hx]
    exact .idle rfl rfl
  rw [hx]
  obtain ⟨r, hrun, -⟩ := run_wrap hr
  unfold processAchievementJob at hrun
  simp only [hparse, hnamed, Option.bind_some, Option.map_some] at hrun
  unfold processAchievement at hrun
  cases hcriteria : parseAchievementCriteria achievement.criteria with
  | none =>
    simp only [hcriteria] at hrun
    cases hrun
    exact .idle rfl rfl
  | some criteria =>
    simp only [hcriteria] at hrun
    cases hs : (calculateAchievementProgressIncrement criteria event).shouldProcess with
    | false =>
      simp only [hs] at hrun
      cases hrun
      exact .idle rfl rfl
    | true =>
      simp only [hs] at hrun
      cases processAchievementTx_step hrun with
      | duplicate _ _ =>
        exact .idle (ensureProfile_userAchievements u) (by rw [ensureProfile_processedEvents])
      | swallowed _ hrow hu => exact .swallowed hrow hu
      | @counted n hint hn hlocked =>
        have htarget : achievement.target = criteria.target := by
          simp [Achievement.target, hcriteria]
        rw [← htarget]
        refine .counted ?_ hn hlocked
        simp [Achievement.amount?, Achievement.increment?, hcriteria, hs, hint]

/-- The markers after a transaction of a job. -/
theorem marked_marks {db : DB} {k key : String} {e : ProcessedEvent}
    (he : (db.marked u key).processedEvents k = some e) : db.processedEvents k = some e ∨ k = key := by
  unfold DB.marked at he
  rw [processedEvents_event, ensureProfile_processedEvents] at he
  split at he
  · exact .inr ‹_›
  · exact .inl he

end steps

/-! ### What a step adds -/

section ledgers
variable {h : History} {versions added : List Achievement}
  {ledger : Uuid → Uuid → List Contribution} {op : Op}

/-- An operation that leaves progress alone, and sets markers of unlocked achievements at most. -/
theorem Ledger.still (hl : Ledger h versions ledger)
    (hp : (op.exec h.db).userAchievements = h.db.userAchievements)
    (hm : ∀ k achievement e,
      (op.exec h.db).processedEvents (uniqueProcessId k achievement) = some e → e.operation = none →
        h.db.processedEvents (uniqueProcessId k achievement) = some e ∨
          ∃ m ∈ h.purchases, ∃ event, m.Raises event ∧ event.eventId = k ∧
            (h.db.userAchievements (m.userId.value, achievement.id)).any (·.isUnlocked) = true) :
    Ledger (h.step op) (versions ++ added) ledger := by
  have hsame : (h.step op).db.userAchievements = h.db.userAchievements := hp
  refine ⟨fun u a c hc => (hl.of u a c hc).kept, hl.once, fun u a row hrow => ?_, fun u a => ?_,
    fun k achievement e he ho => ?_⟩
  · exact hl.started u a row (hsame ▸ hrow)
  · rw [hsame]
    exact hl.counts u a
  · rw [hsame]
    rcases hm k achievement e he ho with hold | ⟨m, hmem, event, hraised, hid, hunlocked⟩
    · obtain ⟨m, hmem, event, hraised, hid, hrest⟩ := hl.spent k achievement e hold ho
      exact ⟨m, purchases_kept hmem, event, hraised, hid, hrest⟩
    · exact ⟨m, purchases_kept hmem, event, hraised, hid, .inr hunlocked⟩

/-- The ledger with one more contribution. -/
def addContribution (ledger : Uuid → Uuid → List Contribution) (u a : Uuid) (c : Contribution) :
    Uuid → Uuid → List Contribution :=
  fun u' a' => if (u', a') = (u, a) then ledger u' a' ++ [c] else ledger u' a'

theorem mem_addContribution {u a u' a' : Uuid} {c c' : Contribution} :
    c' ∈ addContribution ledger u a c u' a' ↔ c' ∈ ledger u' a' ∨ (u', a') = (u, a) ∧ c' = c := by
  unfold addContribution
  split <;> simp [*]

theorem addContribution_sum {u a u' a' : Uuid} {c : Contribution} :
    ((addContribution ledger u a c u' a').map (·.n)).sum =
      ((ledger u' a').map (·.n)).sum + if (u', a') = (u, a) then c.n else 0 := by
  unfold addContribution
  split
  · rw [List.map_append, List.sum_append]
    simp
  · rw [add_zero]

/-- An event that counted has its marker. -/
theorem Ledger.fresh {u : Uuid} {k : String} {achievement : Achievement}
    (hl : Ledger h versions ledger)
    (hnew : h.db.processedEvents (uniqueProcessId k achievement) = none) :
    k ∉ (ledger u achievement.id).map (·.event.eventId) := by
  intro hid
  obtain ⟨c, hc, hid⟩ := List.mem_map.1 hid
  have hmarked := (hl.of _ _ c hc).marked
  rw [uniqueProcessId, (hl.of _ _ c hc).achievement, hid, DB.seen] at hmarked
  rw [uniqueProcessId] at hnew
  simp [hnew] at hmarked

theorem addContribution_once {u a u' a' : Uuid} {c : Contribution}
    (honce : ((ledger u' a').map (·.event.eventId)).Nodup)
    (hfresh : c.event.eventId ∉ (ledger u a).map (·.event.eventId)) :
    ((addContribution ledger u a c u' a').map (·.event.eventId)).Nodup := by
  unfold addContribution
  split
  · rename_i hk
    obtain ⟨rfl, rfl⟩ := Prod.mk.inj hk
    rw [List.map_append, List.nodup_append]
    refine ⟨honce, List.nodup_singleton _, ?_⟩
    rintro _ hid _ hid' rfl
    rw [List.map_singleton, List.mem_singleton] at hid'
    rw [hid'] at hid
    exact hfresh hid
  · exact honce

/-- The progress after a count. -/
theorem counted_row {db : DB} {eventId : String} {u : Uuid} {achievement : Achievement} {target n : ℤ}
    {now : Instant} (k : Uuid × Uuid) :
    ((db.counted eventId u achievement target n now).userAchievements k).elim 0 (·.current) =
      (db.userAchievements k).elim 0 (·.current) + if k = (u, achievement.id) then n else 0 := by
  rw [counted_progress]
  split
  · rename_i hk
    have hcurrent : (advancedRow (db.userAchievements (u, achievement.id)) target n).current =
        (db.userAchievements k).elim 0 (·.current) + n := by
      rw [hk]
      cases db.userAchievements (u, achievement.id) with
      | none => exact (zero_add n).symm
      | some old => rfl
    rw [← hcurrent]
    simp only [Option.elim_some]
    split <;> rfl
  · rw [add_zero]

/-- A count adds its event to the ledger. -/
theorem Ledger.counted {m : TicketPurchasedDto} {event : ActionEvent} {achievement : Achievement}
    {n : ℤ} {now : Instant} (hl : Ledger h versions ledger) (hm : m ∈ h.purchases)
    (hraised : m.Raises event) (hstored : h.db.Stores m event) (hversion : achievement ∈ versions)
    (hmatched : achievement.matches event.actionType = true)
    (hamount : achievement.amount? event = some n)
    (hnew : h.db.processedEvents (uniqueProcessId event.eventId achievement) = none)
    (hlocked : (h.db.userAchievements (m.userId.value, achievement.id)).any (·.isUnlocked) = false)
    (hcounted : op.exec h.db =
      h.db.counted event.eventId m.userId.value achievement achievement.target n now) :
    Ledger (h.step op) (versions ++ added)
      (addContribution ledger m.userId.value achievement.id ⟨m, event, achievement, n⟩) := by
  have hdb : (h.step op).db =
      h.db.counted event.eventId m.userId.value achievement achievement.target n now := hcounted
  have hmarkers : (h.step op).db.processedEvents =
      (h.db.marked m.userId.value (uniqueProcessId event.eventId achievement)).processedEvents := by
    rw [hdb, counted_events]
  refine ⟨fun u a c hc => ?_, fun u a => ?_, fun u a row hrow => ?_, fun u a => ?_,
    fun k a e he ho => ?_⟩
  · rcases mem_addContribution.1 hc with hc | ⟨hk, rfl⟩
    · exact (hl.of u a c hc).kept
    · obtain ⟨rfl, rfl⟩ := Prod.mk.inj hk
      have hseen : (h.step op).db.seen (uniqueProcessId event.eventId achievement) = true := by
        rw [DB.seen, hmarkers]
        exact (marked_seen _ _).trans (by simp)
      exact ⟨purchases_kept hm, rfl, hraised, stores_kept hstored, List.mem_append_left _ hversion, rfl,
        hmatched, hamount, hseen⟩
  · exact addContribution_once (hl.once u a) (hl.fresh hnew)
  · unfold addContribution
    split
    · simp
    · rename_i hk
      rw [hdb, counted_progress, if_neg hk] at hrow
      exact hl.started u a row hrow
  · rw [hdb, counted_row, hl.counts u a, addContribution_sum]
  · rw [hmarkers] at he
    rcases marked_marks he with hold | hk
    · obtain ⟨m', hmem, event', hraised', hid, hrest⟩ := hl.spent k a e hold ho
      refine ⟨m', purchases_kept hmem, event', hraised', hid, ?_⟩
      rcases hrest with ⟨c, hc, hcid⟩ | hunlocked
      · exact .inl ⟨c, mem_addContribution.2 (.inl hc), hcid⟩
      · right
        rw [hdb, counted_progress]
        split
        · rename_i hkey
          rw [hkey, hlocked] at hunlocked
          cases hunlocked
        · exact hunlocked
    · obtain ⟨rfl, hid⟩ := marker_inj hk
      refine ⟨m, purchases_kept hm, event, hraised, rfl, .inl ⟨⟨m, event, achievement, n⟩, ?_, rfl⟩⟩
      exact mem_addContribution.2 (.inr ⟨by rw [hid], rfl⟩)

end ledgers

/-! ### Over runs -/

section runs
variable {p p' : Pipeline}

theorem perform_jobs (p : Pipeline) (op : Op) : (p.perform op).jobs = p.jobs := rfl

theorem sourced_first : Sourced pipeline.first where
  intents _ _ h := nomatch h
  versions _ ha := (List.not_mem_nil ha).elim
  jobs _ hjob := (List.not_mem_nil hjob).elim
  progress := ⟨fun _ _ => [], fun _ _ _ hc => (List.not_mem_nil hc).elim, fun _ _ => List.nodup_nil,
    fun _ _ _ h => (nomatch h), fun _ _ => rfl, fun _ _ _ h => (nomatch h)⟩
  consistent _ _ h := nomatch h

/-- What an operation leaves to show. -/
theorem Sourced.performed {op : Op} (hs : Sourced p)
    (hprogress : ∃ ledger, Ledger (p.perform op).history (p.perform op).versions ledger) :
    Sourced (p.perform op) where
  intents _ _ hkey := intents_sourced hs.intents hkey
  versions _ ha := List.mem_append_right _ ha
  jobs job hjob := by
    obtain ⟨⟨m, hm, hraised, hstored⟩, hremaining⟩ := hs.jobs job hjob
    exact ⟨⟨m, purchases_kept hm, hraised, stores_kept hstored⟩, fun a ha =>
      ⟨List.mem_append_left _ (hremaining a ha).1, (hremaining a ha).2⟩⟩
  progress := hprogress
  consistent := run_consistent [op] hs.consistent

/-- The service goes on beside the jobs. -/
theorem Sourced.quiet {op : Op} (hs : Sourced p) (hop : op.isQuiet = true) :
    Sourced (p.perform op) := by
  obtain ⟨ledger, hl⟩ := hs.progress
  exact hs.performed ⟨ledger, hl.still (quiet_progress hop) fun k achievement e he ho =>
    .inl (quiet_marks hop he ho)⟩

/-- Jobs may be replaced by others of the same events with fewer achievements. -/
theorem Sourced.jobs_of {jobs : List WorkerJob} (hs : Sourced p)
    (hjobs : ∀ job ∈ jobs, ∃ job' ∈ p.jobs, job.event = job'.event ∧
      ∀ a ∈ job.remaining, a ∈ job'.remaining) : Sourced { p with jobs } :=
  { hs with
    jobs := by
      intro job hjob
      obtain ⟨job', hjob', hevent, hsub⟩ := hjobs job hjob
      obtain ⟨hm, hremaining⟩ := hs.jobs job' hjob'
      rw [hevent]
      exact ⟨hm, fun a ha => hremaining a (hsub a ha)⟩ }

/-- The job that has tried an achievement. -/
theorem Sourced.tried {i : ℕ} {event : ActionEvent} {achievement : Achievement}
    {remaining : List Achievement} (hs : Sourced p') (hjobs : p'.jobs = p.jobs)
    (hjob : ⟨event, achievement :: remaining⟩ ∈ p.jobs) :
    Sourced { p' with jobs := p.jobs.set i ⟨event, remaining⟩ } := by
  refine hs.jobs_of fun job hmem => ?_
  rw [hjobs]
  rcases List.mem_or_eq_of_mem_set hmem with hmem | rfl
  · exact ⟨job, hmem, rfl, fun _ ha => ha⟩
  · exact ⟨_, hjob, rfl, fun _ ha => List.mem_cons_of_mem _ ha⟩

/-- A stored intent gives the job of a purchase's event. -/
theorem Sourced.begun {key : Uuid × String × AchievementAction} {job : WorkerJob} (hs : Sourced p)
    (hjob : p.history.db.intentJob key = some job) :
    (∃ m ∈ p.history.purchases, m.Raises job.event ∧ p.history.db.Stores m job.event) ∧
      ∀ a ∈ job.remaining, a ∈ p.versions ∧ a.matches job.event.actionType = true := by
  unfold DB.intentJob at hjob
  simp only [Option.bind_eq_bind, Option.bind_eq_some_iff] at hjob
  obtain ⟨intent, hintent, event, hevent, validEvent, hvalid, event', hevent', hjob⟩ := hjob
  obtain ⟨m, hm, raised, hraised, hpayload, rfl⟩ := hs.intents key intent hintent
  rw [hpayload, hraised.stored] at hevent
  obtain rfl := Option.some.inj hevent
  rw [hraised.parsed] at hvalid
  obtain rfl := Option.some.inj hvalid
  rw [hraised.parsed] at hevent'
  obtain rfl := Option.some.inj hevent'
  obtain rfl := Option.some.inj hjob
  have hstored : p.history.db.Stores m raised := by
    unfold DB.Stores
    rw [hintent, ← hpayload]
  refine ⟨⟨m, hm, hraised, hstored⟩, fun a ha => ?_⟩
  obtain ⟨hdefined, hmatched⟩ := List.mem_filter.1 ha
  exact ⟨hs.versions a hdefined, hmatched⟩

/-- A transaction of a job adds at most one contribution. -/
theorem Sourced.counts {event : ActionEvent} {achievement : Achievement}
    {remaining : List Achievement} (now : Instant) (hs : Sourced p)
    (hjob : ⟨event, achievement :: remaining⟩ ∈ p.jobs) :
    Sourced (p.perform (.call (.processAchievement event achievement) now)) := by
  obtain ⟨⟨m, hm, hraised, hstored⟩, hremaining⟩ := hs.jobs _ hjob
  obtain ⟨hversion, hmatched⟩ := hremaining achievement (List.mem_cons_self ..)
  have houtcome := job_outcome p.history.db achievement now hraised.parsed hraised.user
  generalize Op.call (.processAchievement event achievement) now = op at houtcome ⊢
  obtain ⟨ledger, hl⟩ := hs.progress
  refine hs.performed ?_
  generalize hx : op.exec p.history.db = x at houtcome
  cases houtcome with
  | idle hp hmarkers =>
    refine ⟨ledger, hl.still (hx ▸ hp) fun k a e he _ => .inl ?_⟩
    rwa [hx, hmarkers] at he
  | swallowed hrow hu =>
    refine ⟨ledger, hl.still (by simp [hx, DB.marked]) fun k a e he _ => ?_⟩
    rw [hx] at he
    rcases marked_marks he with hold | hk
    · exact .inl hold
    · obtain ⟨rfl, hid⟩ := marker_inj hk
      refine .inr ⟨m, hm, event, hraised, rfl, ?_⟩
      rw [hid, hrow]
      exact hu
  | counted hamount hnew hlocked =>
    exact ⟨_, hl.counted hm hraised hstored hversion hmatched hamount hnew hlocked hx⟩

theorem sourced_reached (h : pipeline.Reached p) : Sourced p := by
  refine h.invariant sourced_first ?_
  intro a p p' hstep hs
  cases pipeline_cases hstep with
  | operates hop => exact hs.quiet hop
  | begins hjob =>
    exact
      { hs with
        jobs := by
          intro job hmem
          rcases List.mem_append.1 hmem with hmem | hmem
          · exact hs.jobs job hmem
          · rw [List.mem_singleton.1 hmem]
            exact hs.begun hjob }
  | runs hjob => exact (hs.counts _ hjob).tried (perform_jobs _ _) hjob
  | fails hjob => exact hs.tried rfl hjob
  | goes i =>
    refine hs.jobs_of fun job hmem => ?_
    exact ⟨job, List.mem_of_mem_eraseIdx hmem, rfl, fun _ ha => ha⟩

/-- One visit is enough. -/
def firstVisit : AchievementInput where
  code := "FIRST_VISIT"
  name := "First visit"
  criteria := .obj [("field", .str "TICKET_PURCHASED"), ("operator", .str "gte"), ("target", .num 1)]
  rewardPoints := 50
  isActive := true

end runs

end CinemaLoyalty
