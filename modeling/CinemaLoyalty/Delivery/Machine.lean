import CinemaLoyalty.Delivery.Handle
import CinemaLoyalty.Lib.Transition
import Mathlib.Logic.Function.Basic

/-! @svc DeliveryMachine | layer:system | source:src/loyalty/consumers/rmq-delivery.service.ts, src/loyalty/consumers/quarantine-replay.service.ts

    Any number of calls of `handle`, in any number of processes, over one journal. A copy is handed
    over at most once; a redelivery is another copy with the same bytes. Every query is received,
    run and answered in separate steps, so it can fail before or after it took effect, and a query
    whose caller has gone can still run later. -/

namespace CinemaLoyalty
open Transition

/-- `inboundDeliveryId`. -/
def inboundDeliveryId (sha256 : Buffer → String) (queue body : Buffer) : String :=
  sha256 (queue ++ [0] ++ body)

/-- What is fixed in a run: the digest of `node:crypto`, the queue, the bytes of every copy, the
    pattern by which the transport selects the consumer and the user in the payload, and the
    configuration of the process that handles a copy. -/
structure Deployment (Copy : Type) where
  sha256 : Buffer → String
  queue : Buffer
  content : Copy → Buffer
  pattern : Buffer → Operation
  userId : Buffer → Option Uuid
  options : Copy → RmqDeliveryConfig

section
variable {Copy : Type}

/-- The row of a copy. -/
def Deployment.deliveryId (D : Deployment Copy) (c : Copy) : String :=
  inboundDeliveryId D.sha256 D.queue (D.content c)

/-- The consumer of a copy. -/
def Deployment.operation (D : Deployment Copy) (c : Copy) : Operation := D.pattern (D.content c)

/-- No two different bodies among the copies have one digest. -/
def Deployment.CollisionFree (D : Deployment Copy) : Prop :=
  ∀ c c', D.deliveryId c = D.deliveryId c' → D.content c = D.content c'

/-- The statement a call waits for, while the server has not run it. -/
def Deployment.pending (D : Deployment Copy) (c : Copy) : Phase → Option Statement
  | .admitting false => some (.insert (D.operation c) (D.options c).maxAttempts)
  | .quarantining none => some (.quarantine (D.content c))
  | .claiming none => some (.claim (D.options c).leaseMs)
  | .recording claimed (some failure) false =>
    some (.recordFailure claimed.leaseToken failure.code
      (decide (failure.kind = .permanent) || decide (claimed.maxAttempts ≤ claimed.attempts))
      ((D.options c).backoff claimed.attempts))
  | .recording claimed none false => some (.recordCompletion claimed.leaseToken)
  | _ => none

/-- The answer to the statement a call waits for: `row` is what the statement left, if it wrote. -/
def Phase.answer (token : ℕ) (row : Option InboundDelivery) : Phase → Phase
  | .admitting _ => .admitting true
  | .quarantining _ => .quarantining (some row.isSome)
  | .claiming _ => .claiming (some (row.map fun r => ⟨r.attempts, r.maxAttempts, token⟩))
  | .recording claimed failure _ => .recording claimed failure true
  | p => p

/-- A call whose statement has been answered. -/
def Handle.answered (h : Handle) (token : ℕ) (row : Option InboundDelivery) : Handle :=
  { h with phase := h.phase.answer token row }

/-- A call whose read has been answered. -/
def Handle.hasRead (h : Handle) (rows : Option DeliveryState) : Handle :=
  { h with phase := .reading (some rows) }

/-- The journal, the calls, the statements whose caller has gone, and what was observed so far. -/
structure State (Copy : Type) where
  now : Timestamp
  nextToken : ℕ
  rows : String → Option InboundDelivery
  handles : Copy → Handle
  orphans : List (String × Statement)
  log : List (Event Copy)

/-- The row a statement would leave now. -/
def State.written (s : State Copy) (id : String) (q : Statement) (received : Timestamp) :
    Option InboundDelivery :=
  q.write s.nextToken received s.now (s.rows id)

/-- The server runs a statement. -/
def State.execute (s : State Copy) (id : String) (q : Statement) (received : Timestamp) :
    State Copy :=
  match s.written id q received with
  | none => s
  | some row =>
    { s with
      nextToken := s.nextToken + 1
      rows := Function.update s.rows id (some row)
      log := s.log ++ [.row id (q.event s.nextToken s.now row)] }

/-- What happens: time passes, a call takes a turn, the server runs the read or the statement a call
    waits for, or one whose caller has gone, or the operator's reset. -/
inductive Action (Copy : Type)
  | tick (now : Timestamp)
  | turn (c : Copy) (t : Turn)
  | read (c : Copy) (received : Timestamp)
  | run (c : Copy) (received : Timestamp)
  | orphan (i : ℕ) (received : Timestamp)
  | replay (id : String) (replayId : Uuid)

/-! ### Statements -/

section
variable {D : Deployment Copy} {s : State Copy} {id : String} {q : Statement} {received : Timestamp}

/-- A statement writes nothing, or one row and one event. -/
theorem execute_cases (s : State Copy) (id : String) (q : Statement) (received : Timestamp) :
    s.written id q received = none ∧ s.execute id q received = s ∨
    ∃ row, s.written id q received = some row ∧ s.execute id q received =
      { s with
        nextToken := s.nextToken + 1
        rows := Function.update s.rows id (some row)
        log := s.log ++ [.row id (q.event s.nextToken s.now row)] } := by
  unfold State.execute
  cases h : s.written id q received with
  | none => exact .inl ⟨rfl, rfl⟩
  | some row => exact .inr ⟨row, rfl, rfl⟩

@[simp] theorem execute_now : (s.execute id q received).now = s.now := by
  unfold State.execute; split <;> rfl

@[simp] theorem execute_handles : (s.execute id q received).handles = s.handles := by
  unfold State.execute; split <;> rfl

@[simp] theorem execute_orphans : (s.execute id q received).orphans = s.orphans := by
  unfold State.execute; split <;> rfl

theorem execute_same_orphans :
    { s.execute id q received with orphans := s.orphans } = s.execute id q received := by
  unfold State.execute; split <;> rfl

/-- The phases that wait for a statement, and the statement each waits for. -/
inductive Pending (D : Deployment Copy) (c : Copy) : Phase → Statement → Prop
  | insert : Pending D c (.admitting false) (.insert (D.operation c) (D.options c).maxAttempts)
  | quarantine : Pending D c (.quarantining none) (.quarantine (D.content c))
  | claim : Pending D c (.claiming none) (.claim (D.options c).leaseMs)
  | recordFailure {claimed : Claimed} {failure : Failure} {terminal : Bool} {waitMs : ℤ} :
      Pending D c (.recording claimed (some failure) false)
        (.recordFailure claimed.leaseToken failure.code terminal waitMs)
  | recordCompletion {claimed : Claimed} :
      Pending D c (.recording claimed none false) (.recordCompletion claimed.leaseToken)

theorem pending_cases {c : Copy} {p : Phase} (h : D.pending c p = some q) : Pending D c p q := by
  unfold Deployment.pending at h
  split at h <;> cases h
  · exact .insert
  · exact .quarantine
  · exact .claim
  · exact .recordFailure
  · exact .recordCompletion

/-- A statement in flight: some call waits for it, or its caller has gone, or it is a reset. -/
def State.InFlight (D : Deployment Copy) (s : State Copy) (id : String) (q : Statement) : Prop :=
  (∃ c, D.pending c (s.handles c).phase = some q ∧ id = D.deliveryId c) ∨
    (id, q) ∈ s.orphans ∨ ∃ replayId, q = .replay replayId

theorem turn_orphans {c : Copy} {t : Turn} {o : String × Statement}
    (h : o ∈ s.orphans ++ if t.abandons then
      ((D.pending c (s.handles c).phase).map (D.deliveryId c, ·)).toList else []) :
    s.InFlight D o.1 o.2 := by
  rcases List.mem_append.1 h with h | h
  · exact .inr (.inl h)
  · split at h
    · obtain ⟨q, hq, rfl⟩ := Option.map_eq_some_iff.1 (Option.mem_toList.1 h)
      exact .inl ⟨c, hq, rfl⟩
    · cases h

end

/-! ### Histories -/

/-- What an event does to the leases of a row. -/
def Event.leaseEvent (id : String) : Event Copy → Option (Leasing.Event ℕ Timestamp)
  | .row id' (.lease e) => if id' = id then some e else none
  | _ => none

/-- What has happened to the leases of a row. -/
def leaseHistory (id : String) (log : List (Event Copy)) : List (Leasing.Event ℕ Timestamp) :=
  log.filterMap (Event.leaseEvent id)

@[simp] theorem leaseHistory_nil (id : String) : leaseHistory id ([] : List (Event Copy)) = [] := rfl

@[simp] theorem leaseHistory_append (id : String) (log log' : List (Event Copy)) :
    leaseHistory id (log ++ log') = leaseHistory id log ++ leaseHistory id log' :=
  List.filterMap_append

/-- A turn writes no row. -/
theorem turned_rows {operation : Operation} {c : Copy} {h h' : Handle} {events : List (Event Copy)}
    (ht : Turned operation c h h' events) (id : String) (e : RowEvent) : .row id e ∉ events := by
  have goes : ∀ {h h' : Handle} {events : List (Event Copy)}, Goes c h h' events →
      .row id e ∉ events := by
    rintro _ _ _ (_ | _) <;> simp
  have records : ∀ {h h' : Handle} {events : List (Event Copy)} {claimed : Claimed}
      {failure : Option Failure}, Records c h claimed failure h' events → .row id e ∉ events := by
    rintro _ _ _ _ _ (_ | _) <;> simp
  cases ht with
  | hand _ hg => simpa using goes hg
  | go _ _ hg => exact goes hg
  | succeed _ _ hr => simpa using records hr
  | fail _ hr => exact records hr
  | retry _ hr => exact records hr
  | _ => simp

theorem leaseHistory_turned {operation : Operation} {c : Copy} {h h' : Handle}
    {events : List (Event Copy)} (ht : Turned operation c h h' events) (id : String) :
    leaseHistory id events = [] := by
  refine List.filterMap_eq_nil_iff.2 fun e he => ?_
  cases e with
  | row id' e' => exact absurd he (turned_rows ht id' e')
  | _ => rfl

/-! ### Steps -/

variable [DecidableEq Copy] (D : Deployment Copy)

/-- The state after a call changed. -/
def State.put (s : State Copy) (c : Copy) (h : Handle) : State Copy :=
  { s with handles := Function.update s.handles c h }

/-- The state after an action; `none` where it cannot happen. -/
def step : Action Copy → State Copy → Option (State Copy)
  | .tick now, s => if s.now ≤ now then some { s with now } else none
  | .turn c t, s =>
    ((s.handles c).turn (D.operation c) c t).map fun r =>
      { s.put c r.1 with
        log := s.log ++ r.2
        orphans := s.orphans ++ if t.abandons then
          ((D.pending c (s.handles c).phase).map (D.deliveryId c, ·)).toList else [] }
  | .read c received, s =>
    match (s.handles c).phase with
    | .reading none =>
      if received ≤ s.now then
        some (s.put c ((s.handles c).hasRead
          ((s.rows (D.deliveryId c)).map (·.read (D.options c) received))))
      else none
    | _ => none
  | .run c received, s =>
    match D.pending c (s.handles c).phase with
    | some q =>
      if received ≤ s.now then
        some ((s.execute (D.deliveryId c) q received).put c
          ((s.handles c).answered s.nextToken (s.written (D.deliveryId c) q received)))
      else none
    | none => none
  | .orphan i received, s =>
    match s.orphans[i]? with
    | some (id, q) =>
      if received ≤ s.now then
        some { s.execute id q received with orphans := s.orphans.eraseIdx i }
      else none
    | none => none
  | .replay id replayId, s => some (s.execute id (.replay replayId) s.now)

/-- An empty journal; nothing has been handed over. -/
def Deployment.machine : System (State Copy) (Action Copy) where
  first :=
    { now := 0
      nextToken := 0
      rows := fun _ => none
      handles := fun _ => {}
      orphans := []
      log := [] }
  step := step D

variable {D} {s s' : State Copy}

@[simp] theorem put_now {c : Copy} {h : Handle} : (s.put c h).now = s.now := rfl
@[simp] theorem put_nextToken {c : Copy} {h : Handle} : (s.put c h).nextToken = s.nextToken := rfl
@[simp] theorem put_rows {c : Copy} {h : Handle} : (s.put c h).rows = s.rows := rfl
@[simp] theorem put_orphans {c : Copy} {h : Handle} : (s.put c h).orphans = s.orphans := rfl
@[simp] theorem put_log {c : Copy} {h : Handle} : (s.put c h).log = s.log := rfl
@[simp] theorem put_self {c : Copy} {h : Handle} : (s.put c h).handles c = h := by simp [State.put]

theorem put_other {c c' : Copy} {h : Handle} (hc : c' ≠ c) :
    (s.put c h).handles c' = s.handles c' := by simp [State.put, hc]

/-- The statement an action runs, on which row, and when it was received. -/
def Deployment.statement (D : Deployment Copy) (s : State Copy) :
    Action Copy → Option (String × Statement × Timestamp)
  | .run c received => (D.pending c (s.handles c).phase).map (D.deliveryId c, ·, received)
  | .orphan i received => s.orphans[i]?.map fun o => (o.1, o.2, received)
  | .replay id replayId => some (id, .replay replayId, s.now)
  | _ => none

/-- A step, by what it changes. -/
inductive Stepped (D : Deployment Copy) (s : State Copy) :
    Option (String × Statement × Timestamp) → State Copy → Prop
  | tick {now : Timestamp} (h : s.now ≤ now) : Stepped D s none { s with now }
  | turn {c : Copy} {h' : Handle} {events : List (Event Copy)} {orphans : List (String × Statement)}
      (ht : Turned (D.operation c) c (s.handles c) h' events)
      (ho : ∀ o ∈ orphans, s.InFlight D o.1 o.2) :
      Stepped D s none { s.put c h' with log := s.log ++ events, orphans }
  | read {c : Copy} {received : Timestamp} (hp : (s.handles c).phase = .reading none)
      (hr : received ≤ s.now) :
      Stepped D s none (s.put c ((s.handles c).hasRead
        ((s.rows (D.deliveryId c)).map (·.read (D.options c) received))))
  | run {c : Copy} {q : Statement} {received : Timestamp}
      (hq : D.pending c (s.handles c).phase = some q) (hr : received ≤ s.now) :
      Stepped D s (some (D.deliveryId c, q, received))
        ((s.execute (D.deliveryId c) q received).put c
          ((s.handles c).answered s.nextToken (s.written (D.deliveryId c) q received)))
  | server {id : String} {q : Statement} {received : Timestamp}
      {orphans : List (String × Statement)} (hq : s.InFlight D id q) (hr : received ≤ s.now)
      (ho : ∀ o ∈ orphans, o ∈ s.orphans) :
      Stepped D s (some (id, q, received)) { s.execute id q received with orphans }

theorem step_cases {a : Action Copy} (h : step D a s = some s') :
    Stepped D s (D.statement s a) s' := by
  cases a with
  | tick now =>
    simp only [step, Option.ite_none_right_eq_some, Option.some.injEq] at h
    obtain ⟨hle, rfl⟩ := h
    exact .tick hle
  | turn c t =>
    simp only [step, Option.map_eq_some_iff] at h
    obtain ⟨r, ht, rfl⟩ := h
    exact .turn (turn_cases ht) fun o ho => turn_orphans ho
  | read c received =>
    simp only [step] at h
    split at h
    · next hp =>
      simp only [Option.ite_none_right_eq_some, Option.some.injEq] at h
      obtain ⟨hr, rfl⟩ := h
      exact .read hp hr
    · cases h
  | run c received =>
    simp only [step] at h
    split at h
    · next q hq =>
      simp only [Option.ite_none_right_eq_some, Option.some.injEq] at h
      obtain ⟨hr, rfl⟩ := h
      simp only [Deployment.statement, hq, Option.map_some]
      exact .run hq hr
    · cases h
  | orphan i received =>
    simp only [step] at h
    split at h
    · next id q ho =>
      simp only [Option.ite_none_right_eq_some, Option.some.injEq] at h
      obtain ⟨hr, rfl⟩ := h
      simp only [Deployment.statement, ho, Option.map_some]
      exact .server (.inr (.inl (List.mem_of_getElem? ho))) hr fun o => List.mem_of_mem_eraseIdx
    · cases h
  | replay id replayId =>
    simp only [step, Option.some.injEq] at h
    subst h
    rw [← execute_same_orphans]
    exact .server (.inr (.inr ⟨replayId, rfl⟩)) le_rfl fun o ho => ho

end

end CinemaLoyalty
