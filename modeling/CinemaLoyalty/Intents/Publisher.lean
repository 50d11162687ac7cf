import CinemaLoyalty.Intents.Rows
import CinemaLoyalty.PurchaseAwards
import CinemaLoyalty.Lib.Transition

/-! @svc IntentPublisher | layer:system | source:src/achievements/achievement-intent-publisher.service.ts, src/achievements/achievements.service.ts, src/achievements/processors/achievements.processor.ts

    Any number of publishers over one table of intents and one queue. A tick reads a batch and
    publishes every intent of it; there is no claim, so replicas may publish one intent at once. A
    command sent to the queue and a statement sent to the database are executed at any later time, or
    never, whatever has become of their caller by then: it may have run into the timeout, have been
    told of an error, or be dead. Clocks are read anew by every action. The queue passes over a job
    whose id it still holds; a worker that is done with a job takes it out. -/

namespace CinemaLoyalty
open Transition

/-- Where `publish` stands. -/
inductive PublishPhase
  | selected
  | racing
  | recording (outcome : PublishOutcome)
  | over
  deriving DecidableEq

/-- Where `dispatchEvent` stands; it goes on when the race is lost. -/
inductive DispatchPhase
  | idle
  | connecting
  | adding
  | settled
  deriving DecidableEq

/-- One call of `publish`, with the intent as it was read. -/
structure IntentTask (Replica : Type) where
  replica : Replica
  timeoutMs : ℤ
  intent : DispatchIntent
  publish : PublishPhase := .selected
  dispatch : DispatchPhase := .idle

/-- An update of a call, by its token. -/
structure IntentStatement where
  token : ℕ
  id : Uuid
  outcome : PublishOutcome
  deriving DecidableEq

/-- The intents, the calls, the queue, and what is on its way to the queue and to the database. -/
structure IntentState (Replica : Type) where
  rows : List DispatchIntent
  replicas : Replica → List ℕ
  nextToken : ℕ
  tasks : ℕ → Option (IntentTask Replica)
  commands : List (ℕ × AchievementJob)
  handled : List (ℕ × Uuid)
  queue : List AchievementJob
  accepted : List AchievementJob
  statements : List IntentStatement
  executed : List IntentStatement

/-- What happens: a purchase saves an intent; a replica reads a batch; a call begins, gets the queue's
    client, is told that its job is in the queue, or of an error, runs into the timeout, gets the
    database's answer, or an error; the queue executes a command, the database a statement; a worker
    is done with a job; a replica dies. -/
inductive IntentAction (Replica : Type)
  | save (id : Uuid) (msg : TicketPurchasedDto) (pointsUsed : ℤ) (i : ℕ) (createdAt : Instant)
  | select (p : Replica) (now : Instant) (ids : List Uuid)
  | publish (t : ℕ) (message : String) (now : Instant)
  | connect (t : ℕ) (ready : Bool) (now : Instant)
  | added (t : ℕ) (now : Instant)
  | reject (t : ℕ) (message : String) (now : Instant)
  | timeout (t : ℕ) (now : Instant)
  | answer (t : ℕ)
  | fail (t : ℕ) (message : String) (now : Instant)
  | accept (i : ℕ)
  | execute (i : ℕ)
  | finish (id : Uuid)
  | crash (p : Replica)

/-- The outcome of a call that caught an error. -/
def caught (now : Instant) (message : String) : PublishOutcome :=
  .failed (now + RETRY_DELAY_MS) message

section machine
variable {Replica : Type}

namespace IntentState
variable (s : IntentState Replica) (t : ℕ) (task : IntentTask Replica) (outcome : PublishOutcome)

/-- A call moves on. -/
def set : IntentState Replica := { s with tasks := Function.update s.tasks t (some task) }

/-- A call sends the update of its outcome. -/
def record : IntentState Replica :=
  { s.set t { task with publish := .recording outcome } with
    statements := s.statements ++ [{ token := t, id := task.intent.id, outcome }] }

/-- `dispatchEvent` is over; the call hears of it unless the race is lost. -/
def settle : IntentState Replica :=
  let task := { task with dispatch := .settled }
  if task.publish = .racing then s.record t task outcome else s.set t task

/-- The call is over. -/
def isOver : Bool := (s.tasks t).all fun task => decide (task.publish = .over)

end IntentState

variable [DecidableEq Replica]

/-- The state after an action; `none` where it cannot happen. -/
def intentStep (timeoutMs : Replica → ℤ) :
    IntentAction Replica → IntentState Replica → Option (IntentState Replica)
  | .save id msg pointsUsed i createdAt, s =>
    match purchaseIntent id msg pointsUsed i createdAt with
    | none => none
    | some x =>
      if x.id ∉ s.rows.map (·.id) ∧ x.key ∉ s.rows.map (·.key) then
        some { s with rows := s.rows ++ [x] }
      else none
  | .select p now ids, s =>
    if (s.replicas p).all s.isOver = true ∧ PendingBatch s.rows now ids then
      let batch := s.rows.filter fun x => decide (x.id ∈ ids)
      some { s with
        replicas := Function.update s.replicas p (List.range' s.nextToken batch.length)
        nextToken := s.nextToken + batch.length
        tasks := fun t =>
          if s.nextToken ≤ t then
            batch[t - s.nextToken]?.map fun intent =>
              { replica := p, timeoutMs := timeoutMs p, intent }
          else s.tasks t }
    else none
  | .publish t message now, s =>
    (s.tasks t).bind fun task =>
      if task.publish = .selected then
        match task.intent.job with
        | none => some (s.record t task (caught now message))
        | some _ => some (s.set t { task with publish := .racing, dispatch := .connecting })
      else none
  | .connect t ready now, s =>
    (s.tasks t).bind fun task =>
      if task.dispatch = .connecting then
        if ready then
          task.intent.job.map fun job =>
            { s.set t { task with dispatch := .adding } with commands := s.commands ++ [(t, job)] }
        else some (s.settle t task (caught now "Achievement Redis is unavailable"))
      else none
  | .added t now, s =>
    (s.tasks t).bind fun task =>
      if task.dispatch = .adding ∧ (t, task.intent.id) ∈ s.handled then
        some (s.settle t task (.delivered now))
      else none
  | .reject t message now, s =>
    (s.tasks t).bind fun task =>
      if task.dispatch = .connecting ∨ task.dispatch = .adding then
        some (s.settle t task (caught now message))
      else none
  | .timeout t now, s =>
    (s.tasks t).bind fun task =>
      if task.publish = .racing then
        some (s.record t task
          (caught now s!"Achievement delivery timed out after {task.timeoutMs} ms"))
      else none
  | .answer t, s =>
    (s.tasks t).bind fun task =>
      match task.publish with
      | .recording outcome =>
        if { token := t, id := task.intent.id, outcome } ∈ s.executed then
          some (s.set t { task with publish := .over })
        else none
      | _ => none
  | .fail t message now, s =>
    (s.tasks t).bind fun task =>
      match task.publish with
      | .recording (.delivered _) => some (s.record t task (caught now message))
      | .recording (.failed _ _) => some (s.set t { task with publish := .over })
      | _ => none
  | .accept i, s =>
    s.commands[i]?.map fun c =>
      let s' := { s with
        commands := s.commands.eraseIdx i
        handled := s.handled ++ [(c.1, c.2.id)] }
      if s.queue.any fun job => decide (job.id = c.2.id) then s'
      else { s' with queue := s.queue ++ [c.2], accepted := s.accepted ++ [c.2] }
  | .execute i, s =>
    s.statements[i]?.map fun q =>
      let s' := { s with statements := s.statements.eraseIdx i }
      match recordOutcome s.rows q.id q.outcome with
      | none => s'
      | some rows => { s' with rows, executed := s.executed ++ [q] }
  | .finish id, s => some { s with queue := s.queue.filter fun job => job.id ≠ id }
  | .crash p, s =>
    some { s with
      replicas := Function.update s.replicas p []
      tasks := fun t => (s.tasks t).map fun task =>
        if task.replica = p then { task with publish := .over, dispatch := .settled } else task }

/-- No intents yet. -/
def intentPublishers (timeoutMs : Replica → ℤ) : System (IntentState Replica) (IntentAction Replica)
    where
  first :=
    { rows := []
      replicas := fun _ => []
      nextToken := 0
      tasks := fun _ => none
      commands := []
      handled := []
      queue := []
      accepted := []
      statements := []
      executed := [] }
  step := intentStep timeoutMs

end machine

/-! ### Rows -/

/-- Every row is still there. -/
def Follows (rows rows' : List DispatchIntent) : Prop := ∀ x ∈ rows, ∃ x' ∈ rows', x.Keeps x'

/-- The table has the intent as it was read. -/
def Known (rows : List DispatchIntent) (intent : DispatchIntent) : Prop :=
  ∃ x ∈ rows, x.id = intent.id ∧ x.payload = intent.payload

/-- A job that carries the stored event of its intent. -/
def Carried (rows : List DispatchIntent) (job : AchievementJob) : Prop :=
  ∃ x ∈ rows, x.id = job.id ∧ job.data.toJson = x.payload

section rows
variable {rows rows' rows'' : List DispatchIntent} {x x' intent : DispatchIntent}
  {job : AchievementJob}

theorem Follows.refl (rows : List DispatchIntent) : Follows rows rows := fun x hx => ⟨x, hx, .refl x⟩

theorem Follows.trans (h : Follows rows rows') (h' : Follows rows' rows'') : Follows rows rows'' := by
  intro x hx
  obtain ⟨x', hx', hk⟩ := h x hx
  obtain ⟨x'', hx'', hk'⟩ := h' x' hx'
  exact ⟨x'', hx'', hk.trans hk'⟩

theorem Known.follow (h : Known rows intent) (hf : Follows rows rows') : Known rows' intent := by
  obtain ⟨x, hx, hid, hpayload⟩ := h
  obtain ⟨x', hx', hk⟩ := hf x hx
  exact ⟨x', hx', hk.id.trans hid, hk.payload.trans hpayload⟩

theorem Carried.follow (h : Carried rows job) (hf : Follows rows rows') : Carried rows' job := by
  obtain ⟨x, hx, hid, hdata⟩ := h
  obtain ⟨x', hx', hk⟩ := hf x hx
  exact ⟨x', hx', hk.id.trans hid, hdata.trans hk.payload.symm⟩

theorem keeps_job (h : x.Keeps x') : x'.job = x.job := by
  unfold DispatchIntent.job
  rw [h.payload, h.id]

theorem recordOutcome_follows {id : Uuid} {outcome : PublishOutcome}
    (h : recordOutcome rows id outcome = some rows') : Follows rows rows' := by
  intro x hx
  rw [recordOutcome_eq h]
  exact ⟨_, List.mem_map_of_mem hx, write_keeps outcome id x⟩

theorem recordOutcome_ids {id : Uuid} {outcome : PublishOutcome}
    (h : recordOutcome rows id outcome = some rows') : rows'.map (·.id) = rows.map (·.id) := by
  rw [recordOutcome_eq h, List.map_map]
  exact List.map_congr_left fun x _ => (write_keeps outcome id x).id

end rows

/-! ### Steps -/

section steps
variable {Replica : Type} {s s' : IntentState Replica} {t : ℕ} {task task' : IntentTask Replica}
  {outcome : PublishOutcome}

/-- The calls move on: one that is new has read its intent in the table, what is sent to the queue is
    the job of a call, and what is sent to the database as a delivery has had its command executed. -/
structure Moved (s s' : IntentState Replica) : Prop where
  rows : s'.rows = s.rows
  queue : s'.queue = s.queue
  accepted : s'.accepted = s.accepted
  handled : s'.handled = s.handled
  read : ∀ t task, s'.tasks t = some task →
    task.intent ∈ s.rows ∨ ∃ t' task', s.tasks t' = some task' ∧ task.intent = task'.intent
  sent : ∀ c ∈ s'.commands,
    c ∈ s.commands ∨ ∃ t task, s.tasks t = some task ∧ task.intent.job = some c.2
  issued : ∀ q ∈ s'.statements, q ∈ s.statements ∨
    ∀ deliveredAt, q.outcome = .delivered deliveredAt → ∃ c ∈ s.handled, c.2 = q.id

theorem moved_set (ht : s.tasks t = some task) (hintent : task'.intent = task.intent) :
    Moved s (s.set t task') where
  rows := rfl
  queue := rfl
  accepted := rfl
  handled := rfl
  read := by
    intro t' task'' ht'
    simp only [IntentState.set, Function.update_apply] at ht'
    split at ht'
    · cases ht'
      exact .inr ⟨t, task, ht, hintent⟩
    · exact .inr ⟨t', task'', ht', rfl⟩
  sent := fun _ hc => .inl hc
  issued := fun _ hq => .inl hq

theorem moved_record (ht : s.tasks t = some task) (hintent : task'.intent = task.intent)
    (houtcome : ∀ deliveredAt, outcome = .delivered deliveredAt →
      ∃ c ∈ s.handled, c.2 = task.intent.id) : Moved s (s.record t task' outcome) := by
  have hset : Moved s (s.set t { task' with publish := .recording outcome }) := moved_set ht hintent
  refine { hset with issued := fun q hq => ?_ }
  rcases List.mem_append.1 hq with hq | hq
  · exact .inl hq
  · cases List.mem_singleton.1 hq
    exact .inr fun deliveredAt hout => by rw [hintent]; exact houtcome deliveredAt hout

theorem moved_settle (ht : s.tasks t = some task)
    (houtcome : ∀ deliveredAt, outcome = .delivered deliveredAt →
      ∃ c ∈ s.handled, c.2 = task.intent.id) : Moved s (s.settle t task outcome) := by
  unfold IntentState.settle
  simp only
  split
  · exact moved_record ht rfl houtcome
  · exact moved_set ht rfl

variable [DecidableEq Replica] {timeoutMs : Replica → ℤ} {a : IntentAction Replica}

/-- What a step can do. -/
theorem intentStep_cases (hs : intentStep timeoutMs a s = some s') :
    Moved s s' ∨
    (∃ id msg pointsUsed i createdAt x, purchaseIntent id msg pointsUsed i createdAt = some x ∧
      x.id ∉ s.rows.map (·.id) ∧ x.key ∉ s.rows.map (·.key) ∧
      s' = { s with rows := s.rows ++ [x] }) ∨
    (∃ i c, s.commands[i]? = some c ∧ intentStep timeoutMs (.accept i) s = some s') ∨
    (∃ i q, s.statements[i]? = some q ∧ intentStep timeoutMs (.execute i) s = some s') ∨
    ∃ id, s' = { s with queue := s.queue.filter fun job => job.id ≠ id } := by
  have hcaught : ∀ {now message id deliveredAt}, caught now message = .delivered deliveredAt →
      ∃ c ∈ s.handled, c.2 = id := fun hout => by cases hout
  cases a with
  | save id msg pointsUsed i createdAt =>
    simp only [intentStep] at hs
    split at hs
    · cases hs
    · rename_i x hx
      simp only [Option.ite_none_right_eq_some, Option.some.injEq] at hs
      obtain ⟨⟨hid, hkey⟩, rfl⟩ := hs
      exact .inr (.inl ⟨id, msg, pointsUsed, i, createdAt, x, hx, hid, hkey, rfl⟩)
  | select p now ids =>
    simp only [intentStep, Option.ite_none_right_eq_some, Option.some.injEq] at hs
    obtain ⟨-, rfl⟩ := hs
    refine .inl ⟨rfl, rfl, rfl, rfl, fun t task ht => ?_, fun _ hc => .inl hc, fun _ hq => .inl hq⟩
    simp only at ht
    split at ht
    · obtain ⟨x, hx, rfl⟩ := Option.map_eq_some_iff.1 ht
      exact .inl (List.mem_of_mem_filter (List.mem_of_getElem? hx))
    · exact .inr ⟨t, task, ht, rfl⟩
  | publish t message now =>
    obtain ⟨task, ht, hs⟩ := Option.bind_eq_some_iff.1 hs
    simp only [Option.ite_none_right_eq_some] at hs
    obtain ⟨-, hs⟩ := hs
    split at hs <;> cases hs
    · exact .inl (moved_record ht rfl fun _ => hcaught)
    · exact .inl (moved_set ht rfl)
  | connect t ready now =>
    obtain ⟨task, ht, hs⟩ := Option.bind_eq_some_iff.1 hs
    simp only [Option.ite_none_right_eq_some] at hs
    obtain ⟨-, hs⟩ := hs
    split at hs
    · obtain ⟨job, hjob, rfl⟩ := Option.map_eq_some_iff.1 hs
      have hset : Moved s (s.set t { task with dispatch := .adding }) := moved_set ht rfl
      refine .inl { hset with sent := fun c hc => ?_ }
      rcases List.mem_append.1 hc with hc | hc
      · exact .inl hc
      · cases List.mem_singleton.1 hc
        exact .inr ⟨t, task, ht, hjob⟩
    · cases hs
      exact .inl (moved_settle ht fun _ => hcaught)
  | added t now =>
    obtain ⟨task, ht, hs⟩ := Option.bind_eq_some_iff.1 hs
    simp only [Option.ite_none_right_eq_some, Option.some.injEq] at hs
    obtain ⟨⟨-, hhandled⟩, rfl⟩ := hs
    exact .inl (moved_settle ht fun _ _ => ⟨_, hhandled, rfl⟩)
  | reject t message now =>
    obtain ⟨task, ht, hs⟩ := Option.bind_eq_some_iff.1 hs
    simp only [Option.ite_none_right_eq_some, Option.some.injEq] at hs
    obtain ⟨-, rfl⟩ := hs
    exact .inl (moved_settle ht fun _ => hcaught)
  | timeout t now =>
    obtain ⟨task, ht, hs⟩ := Option.bind_eq_some_iff.1 hs
    simp only [Option.ite_none_right_eq_some, Option.some.injEq] at hs
    obtain ⟨-, rfl⟩ := hs
    exact .inl (moved_record ht rfl fun _ => hcaught)
  | answer t =>
    obtain ⟨task, ht, hs⟩ := Option.bind_eq_some_iff.1 hs
    split at hs
    · simp only [Option.ite_none_right_eq_some, Option.some.injEq] at hs
      obtain ⟨-, rfl⟩ := hs
      exact .inl (moved_set ht rfl)
    · cases hs
  | fail t message now =>
    obtain ⟨task, ht, hs⟩ := Option.bind_eq_some_iff.1 hs
    split at hs <;> cases hs
    · exact .inl (moved_record ht rfl fun _ => hcaught)
    · exact .inl (moved_set ht rfl)
  | accept i =>
    obtain ⟨c, hc, -⟩ := Option.map_eq_some_iff.1 hs
    exact .inr (.inr (.inl ⟨i, c, hc, hs⟩))
  | execute i =>
    obtain ⟨q, hq, -⟩ := Option.map_eq_some_iff.1 hs
    exact .inr (.inr (.inr (.inl ⟨i, q, hq, hs⟩)))
  | finish id =>
    cases hs
    exact .inr (.inr (.inr (.inr ⟨id, rfl⟩)))
  | crash p =>
    cases hs
    refine .inl ⟨rfl, rfl, rfl, rfl, fun t task ht => ?_, fun _ hc => .inl hc, fun _ hq => .inl hq⟩
    obtain ⟨task', ht', rfl⟩ := Option.map_eq_some_iff.1 ht
    refine .inr ⟨t, task', ht', ?_⟩
    split <;> rfl

end steps

/-! ### The invariant -/

/-- What holds in every state: stored payloads come back as the events they were made of, whatever is
    on its way to the queue carries one of them, and an update that delivers an intent follows a job
    of its id. -/
structure Dispatches {Replica : Type} (s : IntentState Replica) : Prop where
  ids : (s.rows.map (·.id)).Nodup
  parsed : ∀ x ∈ s.rows, ∃ job, x.job = some job ∧ job.id = x.id ∧ job.data.toJson = x.payload
  read : ∀ t task, s.tasks t = some task → Known s.rows task.intent
  sent : ∀ c ∈ s.commands, Carried s.rows c.2
  queued : ∀ job ∈ s.queue, job ∈ s.accepted
  accepted : ∀ job ∈ s.accepted, Carried s.rows job
  handled : ∀ c ∈ s.handled, ∃ job ∈ s.accepted, job.id = c.2
  issued : ∀ q ∈ s.statements, ∀ deliveredAt, q.outcome = .delivered deliveredAt →
    ∃ job ∈ s.accepted, job.id = q.id
  delivered : ∀ x ∈ s.rows, x.deliveredAt.isSome = true → ∃ job ∈ s.accepted, job.id = x.id

section invariant
variable {Replica : Type} {s s' : IntentState Replica}

/-- The job of an intent as it was read carries the stored event. -/
theorem Dispatches.carried (h : Dispatches s) {intent : DispatchIntent} {job : AchievementJob}
    (hknown : Known s.rows intent) (hjob : intent.job = some job) : Carried s.rows job := by
  obtain ⟨x, hx, hid, hpayload⟩ := hknown
  obtain ⟨job', hjob', hid', hdata⟩ := h.parsed x hx
  have hsame : x.job = intent.job := by
    unfold DispatchIntent.job
    rw [hpayload, hid]
  obtain rfl : job' = job := Option.some.inj (hjob'.symm.trans (hsame.trans hjob))
  exact ⟨x, hx, hid'.symm, hdata⟩

theorem dispatches_moved (h : Dispatches s) (hm : Moved s s') : Dispatches s' where
  ids := hm.rows ▸ h.ids
  parsed := hm.rows ▸ h.parsed
  read := by
    intro t task ht
    rw [hm.rows]
    rcases hm.read t task ht with hrow | ⟨t', task', ht', hintent⟩
    · exact ⟨task.intent, hrow, rfl, rfl⟩
    · rw [hintent]
      exact h.read t' task' ht'
  sent := by
    intro c hc
    rw [hm.rows]
    rcases hm.sent c hc with hc | ⟨t, task, ht, hjob⟩
    · exact h.sent c hc
    · exact h.carried (h.read t task ht) hjob
  queued := by
    rw [hm.queue, hm.accepted]
    exact h.queued
  accepted := by
    rw [hm.accepted, hm.rows]
    exact h.accepted
  handled := by
    rw [hm.handled, hm.accepted]
    exact h.handled
  issued := by
    intro q hq deliveredAt hout
    rw [hm.accepted]
    rcases hm.issued q hq with hq | hnew
    · exact h.issued q hq deliveredAt hout
    · obtain ⟨c, hc, hid⟩ := hnew deliveredAt hout
      rw [← hid]
      exact h.handled c hc
  delivered := by
    rw [hm.rows, hm.accepted]
    exact h.delivered

/-- A purchase saves an intent. -/
theorem dispatches_saved {x : DispatchIntent} (h : Dispatches s) (hid : x.id ∉ s.rows.map (·.id))
    (hjob : ∃ job, x.job = some job ∧ job.id = x.id ∧ job.data.toJson = x.payload)
    (hnew : x.deliveredAt = none) : Dispatches { s with rows := s.rows ++ [x] } := by
  have hfollows : Follows s.rows (s.rows ++ [x]) := fun y hy =>
    ⟨y, List.mem_append_left _ hy, .refl y⟩
  exact
    { ids := by
        rw [List.map_append, List.map_singleton, ← List.concat_eq_append]
        exact h.ids.concat hid
      parsed := by
        intro y hy
        rcases List.mem_append.1 hy with hy | hy
        · exact h.parsed y hy
        · cases List.mem_singleton.1 hy
          exact hjob
      read := fun t task ht => (h.read t task ht).follow hfollows
      sent := fun c hc => (h.sent c hc).follow hfollows
      queued := h.queued
      accepted := fun job hj => (h.accepted job hj).follow hfollows
      handled := h.handled
      issued := h.issued
      delivered := by
        intro y hy hd
        rcases List.mem_append.1 hy with hy | hy
        · exact h.delivered y hy hd
        · cases List.mem_singleton.1 hy
          rw [hnew] at hd
          cases hd }

/-- The queue executes a command: it has a job of that id, or takes this one. -/
theorem dispatches_accepted {i : ℕ} {c : ℕ × AchievementJob} (h : Dispatches s)
    (hc : s.commands[i]? = some c) :
    Dispatches
      (let s' := { s with
        commands := s.commands.eraseIdx i
        handled := s.handled ++ [(c.1, c.2.id)] }
      if s.queue.any fun job => decide (job.id = c.2.id) then s'
      else { s' with queue := s.queue ++ [c.2], accepted := s.accepted ++ [c.2] }) := by
  have hcarried : Carried s.rows c.2 := h.sent c (List.mem_of_getElem? hc)
  have hsent : ∀ c' ∈ s.commands.eraseIdx i, Carried s.rows c'.2 := fun c' hc' =>
    h.sent c' (List.mem_of_mem_eraseIdx hc')
  simp only
  split
  · rename_i hduplicate
    obtain ⟨job, hjob, hid⟩ := List.any_eq_true.1 hduplicate
    have hhandled : ∀ c' ∈ s.handled ++ [(c.1, c.2.id)], ∃ job ∈ s.accepted, job.id = c'.2 := by
      intro c' hc'
      rcases List.mem_append.1 hc' with hc' | hc'
      · exact h.handled c' hc'
      · cases List.mem_singleton.1 hc'
        exact ⟨job, h.queued job hjob, of_decide_eq_true hid⟩
    exact { h with sent := hsent, handled := hhandled }
  · have hmore : ∀ id, (∃ job ∈ s.accepted, job.id = id) →
        ∃ job ∈ s.accepted ++ [c.2], job.id = id :=
      fun id ⟨job, hjob, hid⟩ => ⟨job, List.mem_append_left _ hjob, hid⟩
    exact
      { ids := h.ids
        parsed := h.parsed
        read := h.read
        sent := hsent
        queued := by
          intro job hjob
          rcases List.mem_append.1 hjob with hjob | hjob
          · exact List.mem_append_left _ (h.queued job hjob)
          · exact List.mem_append_right _ hjob
        accepted := by
          intro job hjob
          rcases List.mem_append.1 hjob with hjob | hjob
          · exact h.accepted job hjob
          · cases List.mem_singleton.1 hjob
            exact hcarried
        handled := by
          intro c' hc'
          rcases List.mem_append.1 hc' with hc' | hc'
          · exact hmore _ (h.handled c' hc')
          · cases List.mem_singleton.1 hc'
            exact ⟨c.2, List.mem_append_right _ (List.mem_singleton_self _), rfl⟩
        issued := fun q hq at' hout => hmore _ (h.issued q hq at' hout)
        delivered := fun x hx hd => hmore _ (h.delivered x hx hd) }

/-- The database executes an update: the rows it delivers were delivered before, or have their job. -/
theorem delivered_recorded {q : IntentStatement} {rows : List DispatchIntent} (h : Dispatches s)
    (hq : q ∈ s.statements) (hrows : recordOutcome s.rows q.id q.outcome = some rows) :
    ∀ x ∈ rows, x.deliveredAt.isSome = true → ∃ job ∈ s.accepted, job.id = x.id := by
  intro x' hx' hd
  rw [recordOutcome_eq hrows] at hx'
  obtain ⟨x, hx, rfl⟩ := List.mem_map.1 hx'
  rw [(write_keeps q.outcome q.id x).id]
  rcases write_delivered hd with hold | ⟨hid, deliveredAt, hout⟩
  · exact h.delivered x hx hold
  · rw [hid]
    exact h.issued q hq deliveredAt hout

theorem dispatches_executed {i : ℕ} {q : IntentStatement} (h : Dispatches s)
    (hq : s.statements[i]? = some q) :
    Dispatches
      (let s' := { s with statements := s.statements.eraseIdx i }
      match recordOutcome s.rows q.id q.outcome with
      | none => s'
      | some rows => { s' with rows, executed := s.executed ++ [q] }) := by
  have hissued : ∀ q' ∈ s.statements.eraseIdx i, ∀ deliveredAt,
      q'.outcome = .delivered deliveredAt → ∃ job ∈ s.accepted, job.id = q'.id := fun q' hq' =>
    h.issued q' (List.mem_of_mem_eraseIdx hq')
  simp only
  cases hrows : recordOutcome s.rows q.id q.outcome with
  | none => exact { h with issued := hissued }
  | some rows =>
    have hfollows : Follows s.rows rows := recordOutcome_follows hrows
    have hdelivered : ∀ x ∈ rows, x.deliveredAt.isSome = true → ∃ job ∈ s.accepted, job.id = x.id :=
      delivered_recorded h (List.mem_of_getElem? hq) hrows
    exact
      { ids := (recordOutcome_ids hrows).symm ▸ h.ids
        parsed := by
          intro x' hx'
          rw [recordOutcome_eq hrows] at hx'
          obtain ⟨x, hx, rfl⟩ := List.mem_map.1 hx'
          have hk := write_keeps q.outcome q.id x
          rw [keeps_job hk, hk.id, hk.payload]
          exact h.parsed x hx
        read := fun t task ht => (h.read t task ht).follow hfollows
        sent := fun c hc => (h.sent c hc).follow hfollows
        queued := h.queued
        accepted := fun job hjob => (h.accepted job hjob).follow hfollows
        handled := h.handled
        issued := hissued
        delivered := hdelivered }

variable [DecidableEq Replica] {timeoutMs : Replica → ℤ} {a : IntentAction Replica}

theorem dispatches_step (hs : intentStep timeoutMs a s = some s') (h : Dispatches s) :
    Dispatches s' := by
  rcases intentStep_cases hs with hm | ⟨_, _, _, _, _, x, hx, hid, -, rfl⟩ | ⟨i, c, hc, hs⟩ |
    ⟨i, q, hq, hs⟩ | ⟨id, rfl⟩
  · exact dispatches_moved h hm
  · exact dispatches_saved h hid (purchaseIntent_job hx) (purchaseIntent_open hx)
  · simp only [intentStep, hc, Option.map_some, Option.some.injEq] at hs
    exact hs ▸ dispatches_accepted h hc
  · simp only [intentStep, hq, Option.map_some, Option.some.injEq] at hs
    exact hs ▸ dispatches_executed h hq
  · exact { h with queued := fun job hjob => h.queued job (List.mem_of_mem_filter hjob) }

theorem dispatches_reached (hr : (intentPublishers timeoutMs).Reached s) : Dispatches s := by
  refine hr.invariant ?_ fun hs h => dispatches_step hs h
  exact
    { ids := .nil
      parsed := fun _ hx => by cases hx
      read := fun _ _ ht => by cases ht
      sent := fun _ hc => by cases hc
      queued := fun _ hjob => by cases hjob
      accepted := fun _ hjob => by cases hjob
      handled := fun _ hc => by cases hc
      issued := fun _ hq => by cases hq
      delivered := fun _ hx => by cases hx }

/-! ### What becomes of the table -/

/-- A step leaves the table, saves an intent of a purchase, or executes an update on its way. -/
theorem rows_step (hs : intentStep timeoutMs a s = some s') :
    s'.rows = s.rows ∨
    (∃ id msg pointsUsed i createdAt x, purchaseIntent id msg pointsUsed i createdAt = some x ∧
      x.key ∉ s.rows.map (·.key) ∧ s'.rows = s.rows ++ [x]) ∨
    ∃ q ∈ s.statements, recordOutcome s.rows q.id q.outcome = some s'.rows := by
  rcases intentStep_cases hs with hm | ⟨id, msg, pointsUsed, i, createdAt, x, hx, -, hkey, rfl⟩ |
    ⟨i, c, hc, hs⟩ | ⟨i, q, hq, hs⟩ | ⟨id, rfl⟩
  · exact .inl hm.rows
  · exact .inr (.inl ⟨id, msg, pointsUsed, i, createdAt, x, hx, hkey, rfl⟩)
  · simp only [intentStep, hc, Option.map_some, Option.some.injEq] at hs
    rw [← hs]
    split <;> exact .inl rfl
  · simp only [intentStep, hq, Option.map_some, Option.some.injEq] at hs
    cases hrows : recordOutcome s.rows q.id q.outcome with
    | none =>
      rw [hrows] at hs
      exact .inl (hs ▸ rfl)
    | some rows =>
      rw [hrows] at hs
      exact .inr (.inr ⟨q, List.mem_of_getElem? hq, by rw [hrows, ← hs]⟩)
  · exact .inl rfl

theorem follows_step (hs : intentStep timeoutMs a s = some s') : Follows s.rows s'.rows := by
  rcases rows_step hs with hrows | ⟨-, -, -, -, -, x, -, -, hrows⟩ | ⟨q, -, hrows⟩
  · rw [hrows]
    exact .refl _
  · rw [hrows]
    exact fun y hy => ⟨y, List.mem_append_left _ hy, .refl y⟩
  · exact recordOutcome_follows hrows

theorem follows_run (hr : (intentPublishers timeoutMs).Leads s s') : Follows s.rows s'.rows :=
  @System.Run.keeps _ _ _ _ _ _ (fun s'' => Follows s.rows s''.rows) hr
    (fun _ hs h => h.trans (follows_step hs)) (.refl _)

/-- Whatever is delivered after a step, the queue accepted a job of its id before the step. -/
theorem delivered_step (h : Dispatches s) (hs : intentStep timeoutMs a s = some s') :
    ∀ x ∈ s'.rows, x.deliveredAt.isSome = true → ∃ job ∈ s.accepted, job.id = x.id := by
  rcases rows_step hs with hrows | ⟨_, _, _, _, _, x, hx, -, hrows⟩ | ⟨q, hq, hrows⟩
  · rw [hrows]
    exact h.delivered
  · intro y hy hd
    rw [hrows] at hy
    rcases List.mem_append.1 hy with hy | hy
    · exact h.delivered y hy hd
    · cases List.mem_singleton.1 hy
      rw [purchaseIntent_open hx] at hd
      cases hd
  · exact delivered_recorded h hq hrows

/-- The table as transactions see it. -/
def intentTable (rows : List DispatchIntent) (k : Uuid × String × AchievementAction) :
    Option AchievementDispatchIntent :=
  (rows.find? fun x => x.key = k).map fun x => ⟨x.payload⟩

theorem table_saved {rows : List DispatchIntent} {x : DispatchIntent} {db : DB}
    (hdb : intentTable rows = db.achievementDispatchIntents) :
    intentTable (rows ++ [x]) =
      (db.apply (.intent x.key.1 x.key.2.1 x.key.2.2 ⟨x.payload⟩)).achievementDispatchIntents := by
  funext k
  simp only [DB.apply, ← hdb, Function.update_apply]
  unfold intentTable
  rw [List.find?_append, List.find?_singleton]
  by_cases hk : k = x.key
  · subst hk
    cases rows.find? (fun y => y.key = x.key) <;> simp
  · rw [if_neg hk, if_neg (by simpa using Ne.symm hk), Option.or_none]

theorem table_recorded {rows rows' : List DispatchIntent} {id : Uuid} {outcome : PublishOutcome}
    (h : recordOutcome rows id outcome = some rows') : intentTable rows' = intentTable rows := by
  funext k
  rw [recordOutcome_eq h]
  unfold intentTable
  have hkeys : (fun x : DispatchIntent => decide (x.key = k)) ∘ outcome.write id =
      fun x => decide (x.key = k) := by
    funext x
    simp only [Function.comp, (write_keeps outcome id x).key]
  rw [List.find?_map, hkeys]
  cases rows.find? (fun x => x.key = k) with
  | none => rfl
  | some x =>
    rw [Option.map_some, Option.map_some, (write_keeps outcome id x).payload]
    rfl

/-- The publishers never write what a purchase has stored: a step leaves the table that transactions
    see, or is the write of a purchase. -/
theorem table_step {db : DB} (hdb : intentTable s.rows = db.achievementDispatchIntents)
    (hs : intentStep timeoutMs a s = some s') :
    intentTable s'.rows = db.achievementDispatchIntents ∨
    ∃ msg pointsUsed, ∃ event ∈ purchaseEvents msg pointsUsed, ∃ validated,
      event.parse = some validated ∧
      intentTable s'.rows = (db.apply (.intent msg.userId.value validated.eventId
        validated.actionType ⟨validated.toJson⟩)).achievementDispatchIntents := by
  rcases rows_step hs with hrows | ⟨_, msg, pointsUsed, _, _, x, hx, -, hrows⟩ | ⟨q, -, hrows⟩
  · rw [hrows]
    exact .inl hdb
  · obtain ⟨validated, hv, rfl⟩ := Option.map_eq_some_iff.1 hx
    obtain ⟨event, hevent, hparse⟩ := Option.bind_eq_some_iff.1 hv
    rw [hrows]
    exact .inr ⟨msg, pointsUsed, event, List.mem_of_getElem? hevent, validated, hparse,
      table_saved hdb⟩
  · rw [table_recorded hrows]
    exact .inl hdb

end invariant

/-! ### The publisher's promise -/

/-- Over any number of replicas, in any interleaving: whatever a step leaves delivered, the queue had
    accepted a job of its id with its stored event before the step; a delivered intent stays as it is;
    and every intent stays, under its id, with its payload, as long as it is not delivered eligible
    from its `nextAttemptAt` on. -/
theorem intents_dispatched {Replica : Type} [DecidableEq Replica] {timeoutMs : Replica → ℤ}
    {s : IntentState Replica} (hr : (intentPublishers timeoutMs).Reached s) :
    (∀ a s', intentStep timeoutMs a s = some s' → ∀ x ∈ s'.rows, x.deliveredAt.isSome = true →
      ∃ job ∈ s.accepted, job.id = x.id ∧ job.data.toJson = x.payload) ∧
    ∀ s', (intentPublishers timeoutMs).Leads s s' → (s'.rows.map (·.id)).Nodup ∧
      ∀ x ∈ s.rows, ∃ x' ∈ s'.rows, x'.id = x.id ∧ x'.payload = x.payload ∧
        (x.deliveredAt.isSome = true → x' = x) ∧
        (x'.deliveredAt = none → Eligible s'.rows x') := by
  have hkept : Dispatches s := dispatches_reached hr
  refine ⟨fun a s' hs x hx hd => ?_, fun s' hleads => ?_⟩
  · obtain ⟨job, hjob, hid⟩ := delivered_step hkept hs x hx hd
    obtain ⟨y, hy, hyid, hdata⟩ := (hkept.accepted job hjob).follow (follows_step hs)
    have hnext : Dispatches s' := dispatches_step hs hkept
    obtain rfl : y = x := List.inj_on_of_nodup_map hnext.ids hy hx (hyid.trans hid)
    exact ⟨job, hjob, hid, hdata⟩
  · have hlast : Dispatches s' := dispatches_reached (hr.trans hleads)
    refine ⟨hlast.ids, fun x hx => ?_⟩
    obtain ⟨x', hx', hk⟩ := follows_run hleads x hx
    exact ⟨x', hx', hk.id, hk.payload, hk.delivered, fun hopen =>
      eligible_of_open hlast.ids hx' hopen⟩

/-- Two replicas read one intent. The job of the first is accepted after the timeout; the second hears
    that the queue has it and records the delivery, and the late record of the failure passes over
    the intent. -/
theorem intents_dispatched_late : ∃ s : IntentState Bool,
    (intentPublishers fun _ => 10000).Reached s ∧ ∃ x ∈ s.rows, x.deliveredAt.isSome = true ∧
      x.attempts = 1 ∧ ∃ job ∈ s.accepted, job.id = x.id ∧ job.data.toJson = x.payload := by
  obtain ⟨s, hreach, hs⟩ := (intentPublishers fun _ : Bool => 10000).reached_of_exec
    [.save Uuid.nil plainTicket 0 0 0, .select true 0 [Uuid.nil], .select false 0 [Uuid.nil],
      .publish 0 "" 0, .publish 1 "" 0, .connect 0 true 0, .connect 1 true 0, .timeout 0 10000,
      .accept 0, .accept 0, .added 1 10001, .execute 1, .execute 0, .answer 0, .answer 1]
    (fun s => s.rows.any fun x => x.deliveredAt.isSome && decide (x.attempts = 1))
    (by decide +kernel)
  obtain ⟨x, hx, hd⟩ := List.any_eq_true.1 hs
  obtain ⟨hd, hattempts⟩ := Bool.and_eq_true_iff.1 hd
  have hjob := (intents_dispatched hreach).1 (.finish Uuid.nil) _ rfl x hx hd
  exact ⟨s, hreach, x, hx, hd, of_decide_eq_true hattempts, hjob⟩

end CinemaLoyalty
