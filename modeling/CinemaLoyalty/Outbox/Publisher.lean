import CinemaLoyalty.Outbox.Rows
import CinemaLoyalty.Lib.Transition
import Mathlib.Logic.Function.Basic

/-! @svc OutboxPublisher | layer:system | source:src/loyalty/outbox-publisher.service.ts

    Any number of publishers over one outbox. A tick of a publisher recovers expired claims, fails
    exhausted rows and then claims waves of rows; every claimed row is published and its outcome
    recorded. `FOR UPDATE SKIP LOCKED` lets a statement take any of the rows it selects, up to its
    limit. A claimed row belongs to the token it was claimed under, so what became of the claim is
    kept by token; a publisher that died is one whose claims take no further step, and a statement
    whose caller has gone can still run. -/

namespace CinemaLoyalty
open Transition

/-- What `emitAsync` comes to: the answers of the listeners, a listener that throws, or the
    timeout. -/
inductive Emission
  | resolved (listeners : ℕ)
  | rejected (message : String)
  | timedOut

/-- One call of `processEvent`, by the token of its claim: the claim ran, the listeners were called,
    the outcome is to be recorded, and the call is over. -/
inductive Task
  | none
  | claimed (event : OutboxEvent)
  | publishing (event : OutboxEvent)
  | recording (event : OutboxEvent) (failure : Option String)
  | done

/-- Where `publishPendingEvents` waits. -/
inductive PublisherPhase
  | idle
  | recovering
  | failing
  | claiming (claimed : ℕ)
  | waiting (tokens : List ℕ) (claimed : ℕ)
  deriving DecidableEq

/-- What is observed of the outbox. -/
inductive OutboxLog
  | inserted (row : OutboxEvent)
  | lease (id : RowId) (e : Leasing.Event ℕ Instant)
  | published (token : ℕ) (publication : Publication)
  | accepted (token : ℕ) (publication : Publication) (listeners : ℕ)

/-- `app.outboxPublishConcurrency`, `app.outboxLeaseMs` and `app.outboxPublishTimeoutMs`, as the
    environment schema admits them. -/
structure OutboxConfig where
  publishConcurrency : ℕ := 5
  leaseMs : ℤ := 30000
  publishTimeoutMs : ℤ := 10000
  publishConcurrency_range : 1 ≤ publishConcurrency ∧ publishConcurrency ≤ 50 := by decide
  lease_range : 1 ≤ publishTimeoutMs ∧ publishTimeoutMs < leaseMs := by decide

/-- The outbox, the publishers and what became of every claim. -/
structure OutboxState (Publisher : Type) where
  now : Instant
  nextToken : ℕ
  rows : RowId → Option OutboxEvent
  publishers : Publisher → PublisherPhase
  tasks : ℕ → Task
  log : List OutboxLog

namespace OutboxState
variable {Publisher : Type} (s : OutboxState Publisher)

/-- The row a statement would leave now. -/
def written (id : RowId) (q : OutboxStatement) (received : Instant) : Option OutboxEvent :=
  (s.rows id).bind (q.write s.nextToken received s.now)

/-- A statement runs on one row; a claimed row is on its way to the publisher. -/
def execute (id : RowId) (q : OutboxStatement) (received : Instant) : OutboxState Publisher :=
  match s.written id q received with
  | none => s
  | some row =>
    { s with
      nextToken := s.nextToken + 1
      rows := Function.update s.rows id (some row)
      tasks := match q with
        | .claimEvents _ => Function.update s.tasks s.nextToken (.claimed row)
        | _ => s.tasks
      log := s.log ++ (q.leaseEvents s.nextToken s.now).map (.lease id) }

/-- A statement runs on the rows it has locked. -/
def executeAll (ids : List RowId) (q : OutboxStatement) (received : Instant) :
    OutboxState Publisher :=
  ids.foldl (fun s id => s.execute id q received) s

end OutboxState

/-- What the error message of a failed publication is; `type` is the event's. -/
def Emission.failure (config : OutboxConfig) : Emission → Option String
  | .resolved 0 => some "No outbox listener registered for loyalty.tier_upgraded"
  | .resolved (_ + 1) => none
  | .rejected message => some message
  | .timedOut => some s!"Outbox publication timed out after {config.publishTimeoutMs} ms"

/-- The answer of the listeners, where there is one. -/
def Emission.answer (token : ℕ) (publication : Publication) : Emission → List OutboxLog
  | .resolved listeners => [.accepted token publication listeners]
  | _ => []

/-- The statement that records an outcome; the delay comes from the row as it was claimed. -/
def outcomeStatement (token : ℕ) (event : OutboxEvent) : Option String → OutboxStatement
  | none => .recordSuccess token
  | some message => .recordFailure token message
      (min RETRY_MAX_MS (RETRY_BASE_MS * 2 ^ (min (event.attempts - 1) 4).toNat))

/-- The loop head of `publishPendingEvents`. -/
def nextWave (claimed : ℕ) : PublisherPhase :=
  if claimed < BATCH_SIZE then .claiming claimed else .idle

/-- What happens: time passes, a writer commits a row, a publisher's tick begins, the statement it
    waits for runs or fails, a wave is over, a statement whose caller has gone runs; and for one
    claim, the listeners are called, they answer, the outcome is recorded, or cannot be. -/
inductive OutboxAction (Publisher : Type)
  | tick (now : Instant)
  | insert (row : OutboxEvent)
  | begin (p : Publisher)
  | run (p : Publisher) (ids : List RowId) (received : Instant)
  | lose (p : Publisher)
  | next (p : Publisher)
  | stray (ids : List RowId) (q : OutboxStatement) (received : Instant)
  | publish (token : ℕ)
  | settle (p : Publisher) (token : ℕ) (emission : Emission)
  | record (token : ℕ)
  | drop (token : ℕ)

section
variable {Publisher : Type} [DecidableEq Publisher]

/-- A statement of the tick, that no claim's outcome depends on. -/
def OutboxStatement.shared : OutboxStatement → Bool
  | .recordFailure _ _ _ | .recordSuccess _ => false
  | _ => true

/-- A publisher moves on. -/
def OutboxState.move (s : OutboxState Publisher) (p : Publisher) (phase : PublisherPhase) :
    OutboxState Publisher :=
  { s with publishers := Function.update s.publishers p phase }

/-- A claim moves on, with what is observed. -/
def OutboxState.advance (s : OutboxState Publisher) (token : ℕ) (task : Task)
    (events : List OutboxLog) : OutboxState Publisher :=
  { s with tasks := Function.update s.tasks token task, log := s.log ++ events }

/-- The statement a publisher waits for runs. -/
def OutboxState.runPublisher (config : OutboxConfig) (s : OutboxState Publisher) (p : Publisher)
    (ids : List RowId) (received : Instant) : Option (OutboxState Publisher) :=
  match s.publishers p with
  | .recovering =>
    if ids.length ≤ BATCH_SIZE then
      some ((s.executeAll ids .recoverExpiredClaims received).move p .failing)
    else none
  | .failing =>
    if ids.length ≤ BATCH_SIZE then
      some ((s.executeAll ids .failExhaustedPending received).move p (nextWave 0))
    else none
  | .claiming claimed =>
    if ids.length ≤ min config.publishConcurrency (BATCH_SIZE - claimed) then
      let s' := s.executeAll ids (.claimEvents config.leaseMs) received
      let count := s'.nextToken - s.nextToken
      some (s'.move p (if count = 0 then .idle
        else .waiting (List.range' s.nextToken count) (claimed + count)))
    else none
  | _ => none

/-- The state after an action; `none` where it cannot happen. -/
def outboxStep (config : Publisher → OutboxConfig) :
    OutboxAction Publisher → OutboxState Publisher → Option (OutboxState Publisher)
  | .tick now, s => if s.now ≤ now then some { s with now } else none
  | .insert row, s =>
    if row.Inserted ∧ (s.rows row.id).isNone then
      some { s with
        rows := Function.update s.rows row.id (some row)
        log := s.log ++ [.inserted row] }
    else none
  | .begin p, s =>
    match s.publishers p with
    | .idle => some (s.move p .recovering)
    | _ => none
  | .run p ids received, s =>
    if received ≤ s.now then s.runPublisher (config p) p ids received else none
  | .lose p, s => some (s.move p .idle)
  | .next p, s =>
    match s.publishers p with
    | .waiting tokens claimed =>
      if tokens.all (fun t => match s.tasks t with | .done => true | _ => false) then
        some (s.move p (nextWave claimed))
      else none
    | _ => none
  | .stray ids q received, s =>
    if received ≤ s.now ∧ q.shared = true then some (s.executeAll ids q received) else none
  | .publish token, s =>
    match s.tasks token with
    | .claimed event =>
      some (s.advance token (.publishing event) [.published token event.publication])
    | _ => none
  | .settle p token emission, s =>
    match s.tasks token with
    | .publishing event =>
      some (s.advance token (.recording event (emission.failure (config p)))
        (emission.answer token event.publication))
    | _ => none
  | .record token, s =>
    match s.tasks token with
    | .recording event failure =>
      some ((s.execute event.id (outcomeStatement token event failure) s.now).advance token .done [])
    | _ => none
  | .drop token, s =>
    match s.tasks token with
    | .recording _ _ => some (s.advance token .done [])
    | _ => none

/-- An empty outbox. -/
def outboxMachine (config : Publisher → OutboxConfig) :
    System (OutboxState Publisher) (OutboxAction Publisher) where
  first :=
    { now := 0
      nextToken := 0
      rows := fun _ => none
      publishers := fun _ => .idle
      tasks := fun _ => .none
      log := [] }
  step := outboxStep config

/-! ### Statements -/

variable {s s' : OutboxState Publisher} {id : RowId} {q : OutboxStatement} {received : Instant}

omit [DecidableEq Publisher] in
/-- A statement writes nothing, or one row and what happens to its lease. -/
theorem OutboxState.execute_cases (s : OutboxState Publisher) (id : RowId) (q : OutboxStatement)
    (received : Instant) :
    s.execute id q received = s ∨
    ∃ row row', s.rows id = some row ∧ q.write s.nextToken received s.now row = some row' ∧
      s.execute id q received =
        { s with
          nextToken := s.nextToken + 1
          rows := Function.update s.rows id (some row')
          tasks := match q with
            | .claimEvents _ => Function.update s.tasks s.nextToken (.claimed row')
            | _ => s.tasks
          log := s.log ++ (q.leaseEvents s.nextToken s.now).map (.lease id) } := by
  unfold OutboxState.execute
  cases h : s.written id q received with
  | none => exact .inl rfl
  | some row' =>
    obtain ⟨row, hrow, hw⟩ := Option.bind_eq_some_iff.1 h
    exact .inr ⟨row, row', hrow, hw, rfl⟩

omit [DecidableEq Publisher] in
@[simp] theorem OutboxState.execute_now : (s.execute id q received).now = s.now := by
  unfold OutboxState.execute
  split <;> rfl

omit [DecidableEq Publisher] in
/-- What a statement keeps on one row it keeps on the rows it has locked. -/
theorem OutboxState.executeAll_keeps {I : OutboxState Publisher → Prop}
    (hstep : ∀ {s : OutboxState Publisher} {id : RowId}, received ≤ s.now → I s →
      I (s.execute id q received)) (ids : List RowId) (hr : received ≤ s.now) (h : I s) :
    I (s.executeAll ids q received) := by
  induction ids generalizing s with
  | nil => exact h
  | cons id ids ih => exact ih (by simpa using hr) (hstep hr h)

/-! ### Steps -/

/-- A step, by what it changes. -/
inductive OutboxStepped (s : OutboxState Publisher) : OutboxState Publisher → Prop
  | tick {now : Instant} (h : s.now ≤ now) : OutboxStepped s { s with now }
  | insert {row : OutboxEvent} (hi : row.Inserted) (hn : s.rows row.id = none) :
      OutboxStepped s
        { s with
          rows := Function.update s.rows row.id (some row)
          log := s.log ++ [.inserted row] }
  | move (p : Publisher) (phase : PublisherPhase) : OutboxStepped s (s.move p phase)
  | run {ids : List RowId} {q : OutboxStatement} {received : Instant} (p : Publisher)
      (phase : PublisherPhase) (hq : q.shared = true) (hr : received ≤ s.now) :
      OutboxStepped s ((s.executeAll ids q received).move p phase)
  | stray {ids : List RowId} {q : OutboxStatement} {received : Instant} (hq : q.shared = true)
      (hr : received ≤ s.now) : OutboxStepped s (s.executeAll ids q received)
  | publish {token : ℕ} {event : OutboxEvent} (ht : s.tasks token = .claimed event) :
      OutboxStepped s (s.advance token (.publishing event) [.published token event.publication])
  | settle {token : ℕ} {event : OutboxEvent} {emission : Emission} (config : OutboxConfig)
      (ht : s.tasks token = .publishing event) :
      OutboxStepped s (s.advance token (.recording event (emission.failure config))
        (emission.answer token event.publication))
  | record {token : ℕ} {event : OutboxEvent} {failure : Option String}
      (ht : s.tasks token = .recording event failure) :
      OutboxStepped s ((s.execute event.id (outcomeStatement token event failure) s.now).advance
        token .done [])
  | drop {token : ℕ} {event : OutboxEvent} {failure : Option String}
      (ht : s.tasks token = .recording event failure) : OutboxStepped s (s.advance token .done [])

theorem runPublisher_cases {config : OutboxConfig} {p : Publisher} {ids : List RowId}
    (hr : received ≤ s.now) (h : s.runPublisher config p ids received = some s') :
    OutboxStepped s s' := by
  unfold OutboxState.runPublisher at h
  split at h
  · simp only [Option.ite_none_right_eq_some, Option.some.injEq] at h
    obtain ⟨_, rfl⟩ := h
    exact .run p _ rfl hr
  · simp only [Option.ite_none_right_eq_some, Option.some.injEq] at h
    obtain ⟨_, rfl⟩ := h
    exact .run p _ rfl hr
  · simp only [Option.ite_none_right_eq_some, Option.some.injEq] at h
    obtain ⟨_, rfl⟩ := h
    exact .run p _ rfl hr
  · cases h

theorem outboxStep_cases {config : Publisher → OutboxConfig} {a : OutboxAction Publisher}
    (h : outboxStep config a s = some s') : OutboxStepped s s' := by
  cases a with
  | tick now =>
    simp only [outboxStep, Option.ite_none_right_eq_some, Option.some.injEq] at h
    obtain ⟨hle, rfl⟩ := h
    exact .tick hle
  | insert row =>
    simp only [outboxStep, Option.ite_none_right_eq_some, Option.some.injEq] at h
    obtain ⟨⟨hi, hn⟩, rfl⟩ := h
    exact .insert hi (Option.isNone_iff_eq_none.1 hn)
  | begin p =>
    simp only [outboxStep] at h
    split at h <;> cases h
    exact .move p .recovering
  | run p ids received =>
    simp only [outboxStep, Option.ite_none_right_eq_some] at h
    exact runPublisher_cases h.1 h.2
  | lose p =>
    cases h
    exact .move p .idle
  | next p =>
    simp only [outboxStep] at h
    split at h
    · simp only [Option.ite_none_right_eq_some, Option.some.injEq] at h
      obtain ⟨_, rfl⟩ := h
      exact .move p _
    · cases h
  | stray ids q received =>
    simp only [outboxStep, Option.ite_none_right_eq_some, Option.some.injEq] at h
    obtain ⟨⟨hr, hq⟩, rfl⟩ := h
    exact .stray hq hr
  | publish token =>
    simp only [outboxStep] at h
    split at h <;> cases h
    exact .publish ‹_›
  | settle p token emission =>
    simp only [outboxStep] at h
    split at h <;> cases h
    exact .settle (config p) ‹_›
  | record token =>
    simp only [outboxStep] at h
    split at h <;> cases h
    exact .record ‹_›
  | drop token =>
    simp only [outboxStep] at h
    split at h <;> cases h
    exact .drop ‹_›

end

end CinemaLoyalty
