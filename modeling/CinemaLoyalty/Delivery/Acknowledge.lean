import CinemaLoyalty.Delivery.Budget

/-! @svc DeliveryAcknowledge | layer:property | source:src/loyalty/consumers/rmq-delivery.service.ts (handle)

    When a copy is acknowledged. A row is marked completed only by a record whose `work` returned,
    and quarantined only with the bytes of a copy; a call acknowledges on what it read, on what it
    stored or on what its own `work` did. The evidence is in the log before the acknowledgement, and
    a call that returns without one was told to stop. -/

namespace CinemaLoyalty
open Transition

section
variable {Copy : Type} {D : Deployment Copy} {log : List (Event Copy)} {id : String} {c : Copy}

/-! ### Evidence -/

/-- Some `work` for a copy of this row has returned without error. -/
def Succeeded (D : Deployment Copy) (log : List (Event Copy)) (id : String) : Prop :=
  ∃ c, D.deliveryId c = id ∧ .succeeded c ∈ log

/-- The row has been quarantined with the bytes of a copy of it. -/
def Stored (D : Deployment Copy) (log : List (Event Copy)) (id : String) : Prop :=
  ∃ c, D.deliveryId c = id ∧ .row id (.quarantined (some (D.content c))) ∈ log

theorem Succeeded.mono (h : Succeeded D log id) (events : List (Event Copy)) :
    Succeeded D (log ++ events) id := by
  obtain ⟨c, hc, hin⟩ := h
  exact ⟨c, hc, List.mem_append_left _ hin⟩

theorem Stored.mono (h : Stored D log id) (events : List (Event Copy)) :
    Stored D (log ++ events) id := by
  obtain ⟨c, hc, hin⟩ := h
  exact ⟨c, hc, List.mem_append_left _ hin⟩

/-- What a row says about its past. -/
structure RowEvidence (D : Deployment Copy) (log : List (Event Copy)) (id : String)
    (row : InboundDelivery) : Prop where
  routed : ∃ c, D.deliveryId c = id ∧ D.operation c = row.operation
  completed : row.completedAt.isSome = true → Succeeded D log id
  quarantined : row.quarantinedAt.isSome = true → Stored D log id

theorem RowEvidence.mono {row : InboundDelivery} (h : RowEvidence D log id row)
    (events : List (Event Copy)) : RowEvidence D (log ++ events) id row :=
  ⟨h.routed, fun hc => (h.completed hc).mono events, fun hq => (h.quarantined hq).mono events⟩

/-- What a statement relies on. -/
def Statement.Backed (D : Deployment Copy) (log : List (Event Copy)) (id : String) :
    Statement → Prop
  | .insert operation _ => ∃ c, D.deliveryId c = id ∧ D.operation c = operation
  | .recordCompletion _ => Succeeded D log id
  | .quarantine body => ∃ c, D.deliveryId c = id ∧ D.content c = body
  | _ => True

theorem Statement.Backed.mono {q : Statement} (h : q.Backed D log id) (events : List (Event Copy)) :
    q.Backed D (log ++ events) id := by
  cases q with
  | recordCompletion _ => exact Succeeded.mono h events
  | _ => exact h

/-- A statement leaves a row that says no more than is in the log. -/
theorem write_evidence {q : Statement} {token : ℕ} {received now : Timestamp}
    {row : Option InboundDelivery} {row' : InboundDelivery} (hq : q.Backed D log id)
    (hrow : ∀ r ∈ row, RowEvidence D log id r) (hw : q.write token received now row = some row') :
    RowEvidence D (log ++ [.row id (q.event token now row')]) id row' := by
  cases row with
  | none =>
    cases q <;> cases hw
    exact ⟨hq, by simp, by simp⟩
  | some row =>
    have hmono := (hrow row rfl).mono [.row id (q.event token now row')]
    cases q with
    | insert operation maxAttempts =>
      simp only [Statement.write, InboundDelivery.restart, Option.ite_none_right_eq_some,
        Option.some.injEq] at hw
      obtain ⟨_, rfl⟩ := hw
      exact ⟨hmono.routed, by simp, hmono.quarantined⟩
    | claim leaseMs =>
      simp only [Statement.write, Option.bind_some, InboundDelivery.claim,
        Option.ite_none_right_eq_some, Option.some.injEq] at hw
      obtain ⟨_, rfl⟩ := hw
      exact ⟨hmono.routed, hmono.completed, hmono.quarantined⟩
    | recordFailure owner code terminal waitMs =>
      simp only [Statement.write, Option.bind_some, InboundDelivery.recordFailure,
        Option.ite_none_right_eq_some, Option.some.injEq] at hw
      obtain ⟨_, rfl⟩ := hw
      exact ⟨hmono.routed, hmono.completed, hmono.quarantined⟩
    | recordCompletion owner =>
      simp only [Statement.write, Option.bind_some, InboundDelivery.recordCompletion,
        Option.ite_none_right_eq_some, Option.some.injEq] at hw
      obtain ⟨_, rfl⟩ := hw
      exact ⟨hmono.routed, fun _ => Succeeded.mono hq _, hmono.quarantined⟩
    | quarantine body =>
      simp only [Statement.write, Option.bind_some, InboundDelivery.quarantine,
        Option.ite_none_right_eq_some, Option.some.injEq] at hw
      obtain ⟨_, rfl⟩ := hw
      obtain ⟨c, hc, rfl⟩ := hq
      exact ⟨hmono.routed, hmono.completed,
        fun _ => ⟨c, hc, List.mem_append_right _ (by simp [Statement.event])⟩⟩
    | replay replayId =>
      simp only [Statement.write, Option.bind_some, InboundDelivery.replay,
        Option.ite_none_right_eq_some, Option.some.injEq] at hw
      obtain ⟨_, rfl⟩ := hw
      exact ⟨hmono.routed, by simp, by simp⟩

/-! ### Calls -/

/-- What the phase of a call relies on. -/
def Phase.Backed (D : Deployment Copy) (log : List (Event Copy)) (c : Copy) : Phase → Prop
  | .reading (some (some state)) =>
    (state.completedAt.isSome = true → Succeeded D log (D.deliveryId c)) ∧
      (state.quarantinedAt.isSome = true → Stored D log (D.deliveryId c))
  | .quarantining (some true) => Stored D log (D.deliveryId c)
  | .recording _ none _ => .succeeded c ∈ log
  | .backingOff _ none => .succeeded c ∈ log
  | _ => True

theorem Phase.Backed.mono {p : Phase} (h : p.Backed D log c) (events : List (Event Copy)) :
    p.Backed D (log ++ events) c := by
  unfold Phase.Backed at h ⊢
  split
  · exact ⟨fun hc => (h.1 hc).mono events, fun hq => (h.2 hq).mono events⟩
  · exact Stored.mono h events
  · exact List.mem_append_left _ h
  · exact List.mem_append_left _ h
  · trivial

theorem Phase.Fresh.backed {p : Phase} (h : p.Fresh) : p.Backed D log c := by
  cases h <;> trivial

/-- A call against the log: aborted only when told to stop, acknowledged only when over. -/
structure Handle.Backed (D : Deployment Copy) (log : List (Event Copy)) (c : Copy) (h : Handle) :
    Prop where
  stopped : h.aborted = true → .signalled c ∈ log
  phase : h.phase.Backed D log c
  once : ∀ quarantined, .acked c quarantined ∈ log → h.phase = .returned

/-- An acknowledgement is the first for its copy and has its evidence before it; a return comes
    after the acknowledgement or after a signal. -/
def AckRule (D : Deployment Copy) (before : List (Event Copy)) (e : Event Copy) : Prop :=
  (∀ c quarantined, e = .acked c quarantined → (∀ q, .acked c q ∉ before) ∧
    (Succeeded D before (D.deliveryId c) ∨ Stored D before (D.deliveryId c))) ∧
  ∀ c, e = .returned c → (∃ q, .acked c q ∈ before) ∨ .signalled c ∈ before

variable {h h' : Handle} {events : List (Event Copy)}

theorem ackRule_other {before : List (Event Copy)} {e : Event Copy}
    (ha : ∀ c q, e ≠ .acked c q) (hr : ∀ c, e ≠ .returned c) : AckRule D before e :=
  ⟨fun c q he => absurd he (ha c q), fun c he => absurd he (hr c)⟩

theorem ackRule_returned {before : List (Event Copy)}
    (h : (∃ q, .acked c q ∈ before) ∨ .signalled c ∈ before) : AckRule D before (.returned c) := by
  refine ⟨fun c' q he => (by cases he), fun c' he => ?_⟩
  cases he
  exact h

/-- A phase other than `returned` has not acknowledged. -/
theorem Handle.Backed.unacked (hb : h.Backed D log c) (hp : h.phase ≠ .returned)
    (quarantined : Bool) : .acked c quarantined ∉ log := fun hin => hp (hb.once quarantined hin)

theorem Handle.Backed.extend (hb : h.Backed D log c) (hno : ∀ q, .acked c q ∉ events) :
    h.Backed D (log ++ events) c := by
  refine ⟨fun ha => List.mem_append_left _ (hb.stopped ha), hb.phase.mono events, fun q hin => ?_⟩
  exact hb.once q ((List.mem_append.1 hin).resolve_right (hno q))

/-- A call that was not over goes on, or returns on a signal. -/
theorem Goes.backed (hg : Goes c h h' events) (hb : h.Backed D log c) (hp : h.phase ≠ .returned)
    (hl : Grounded (AckRule D) log) :
    h'.Backed D (log ++ events) c ∧ Grounded (AckRule D) (log ++ events) := by
  cases hg with
  | leave ha =>
    refine ⟨⟨fun _ => List.mem_append_left _ (hb.stopped ha), trivial, fun _ _ => rfl⟩, ?_⟩
    exact hl.concat (ackRule_returned (.inr (hb.stopped ha)))
  | on hp' _ =>
    rw [List.append_nil]
    exact ⟨⟨hb.stopped, hp'.backed, fun q hin => absurd hin (hb.unacked hp q)⟩, hl⟩

theorem Records.backed {claimed : Claimed} {failure : Option Failure}
    (hr : Records c h claimed failure h' events) (hb : h.Backed D log c) (hp : h.phase ≠ .returned)
    (hf : failure = none → .succeeded c ∈ log) (hl : Grounded (AckRule D) log) :
    h'.Backed D (log ++ events) c ∧ Grounded (AckRule D) (log ++ events) := by
  cases hr with
  | leave ha =>
    refine ⟨⟨fun _ => List.mem_append_left _ (hb.stopped ha), trivial, fun _ _ => rfl⟩, ?_⟩
    exact hl.concat (ackRule_returned (.inr (hb.stopped ha)))
  | on =>
    rw [List.append_nil]
    refine ⟨⟨hb.stopped, ?_, fun q hin => absurd hin (hb.unacked hp q)⟩, hl⟩
    cases failure with
    | none => exact hf rfl
    | some _ => trivial

/-- The evidence at the three sites of `channel.ack`. -/
theorem Acks.evidence {p : Phase} {quarantined : Bool} (hw : Acks p quarantined)
    (hb : p.Backed D log c) :
    Succeeded D log (D.deliveryId c) ∨ Stored D log (D.deliveryId c) := by
  cases hw with
  | settled hs =>
    rcases hs with hs | hs
    · exact .inl (hb.1 hs)
    · exact .inr (hb.2 hs)
  | saved => exact .inr hb
  | recorded => exact .inl ⟨c, rfl, hb⟩

/-- A turn keeps a call backed, and the log grounded. -/
theorem turned_backed {operation : Operation} (ht : Turned operation c h h' events)
    (hb : h.Backed D log c) (hl : Grounded (AckRule D) log) :
    h'.Backed D (log ++ events) c ∧ Grounded (AckRule D) (log ++ events) := by
  cases ht with
  | signal =>
    refine ⟨⟨fun _ => by simp, hb.phase.mono _, fun q hin => hb.once q (by simpa using hin)⟩, ?_⟩
    exact hl.concat (ackRule_other (by simp) (by simp))
  | hand hp hg =>
    have hb' : h.Backed D (log ++ [.handed c]) c := hb.extend (by simp)
    rw [List.append_cons]
    exact hg.backed hb' (by simp [hp]) (hl.concat (ackRule_other (by simp) (by simp)))
  | @go h' events hp admitted hadm hg =>
    have hp' : h.phase ≠ .returned := by
      rintro heq
      rcases hp with hp | ⟨_, _, hp⟩
      · rw [heq] at hp
        cases hp
      · simp [heq] at hp
    have hb' : Handle.Backed D log c { h with admitted } := ⟨hb.stopped, hb.phase, hb.once⟩
    exact hg.backed hb' hp' hl
  | @ack quarantined ha hw =>
    have hun : h.phase ≠ .returned := by
      rintro heq
      rw [heq] at hw
      cases hw
    refine ⟨⟨fun hc => absurd hc (by simp [ha]), trivial, fun _ _ => rfl⟩, ?_⟩
    rw [List.append_cons]
    refine (hl.concat ⟨fun c' q he => ?_, by simp⟩).concat (ackRule_returned (.inl ⟨quarantined, ?_⟩))
    · cases he
      exact ⟨hb.unacked hun, hw.evidence hb.phase⟩
    · simp
  | start hp =>
    refine ⟨⟨fun ha => List.mem_append_left _ (hb.stopped ha), trivial, fun q hin => ?_⟩,
      hl.concat (ackRule_other (by simp) (by simp))⟩
    exact absurd (by simpa using hin) (hb.unacked (by simp [hp]) q)
  | commit hp =>
    refine ⟨⟨fun ha => List.mem_append_left _ (hb.stopped ha), trivial, fun q hin => ?_⟩,
      hl.concat (ackRule_other (by simp) (by simp))⟩
    exact absurd (by simpa using hin) (hb.unacked (by simp [hp]) q)
  | commitLate _ =>
    have hb' : h.Backed D (log ++ [.committed c]) c := hb.extend (by simp)
    exact ⟨⟨hb'.stopped, hb'.phase, hb'.once⟩, hl.concat (ackRule_other (by simp) (by simp))⟩
  | succeed hp _ hr =>
    have hb' : h.Backed D (log ++ [.succeeded c]) c := hb.extend (by simp)
    rw [List.append_cons]
    exact hr.backed hb' (by simp [hp]) (fun _ => by simp)
      (hl.concat (ackRule_other (by simp) (by simp)))
  | @fail h' events claimed committed failure late hp hr =>
    have hb' : Handle.Backed D log c { h with late } := ⟨hb.stopped, hb.phase, hb.once⟩
    exact hr.backed hb' (by simp [hp]) (by simp) hl
  | @retry h' events claimed failure hp hr =>
    refine hr.backed hb (by simp [hp]) (fun hf => ?_) hl
    have hphase := hb.phase
    rw [hp, hf] at hphase
    exact hphase
  | @backOff claimed failure answered hp =>
    rw [List.append_nil]
    refine ⟨⟨hb.stopped, ?_, fun q hin => absurd hin (hb.unacked (by simp [hp]) q)⟩, hl⟩
    have hphase := hb.phase
    rw [hp] at hphase
    cases failure with
    | none => exact hphase
    | some _ => trivial
  | crash _ hr =>
    rw [List.append_nil]
    exact ⟨⟨hb.stopped, trivial, fun q hin => absurd hin (hb.unacked hr q)⟩, hl⟩

/-- A statement a call waits for relies on what its phase relies on. -/
theorem pending_backed {p : Phase} {q : Statement} (hq : D.pending c p = some q)
    (hb : p.Backed D log c) : q.Backed D log (D.deliveryId c) := by
  cases pending_cases hq with
  | insert => exact ⟨c, rfl, rfl⟩
  | quarantine => exact ⟨c, rfl, rfl⟩
  | recordCompletion => exact ⟨c, rfl, hb⟩
  | _ => trivial

/-- A turn acknowledges no copy but its own. -/
theorem turned_acked {operation : Operation} (ht : Turned operation c h h' events) {c' : Copy}
    (hc : c' ≠ c) (quarantined : Bool) : .acked c' quarantined ∉ events := by
  cases ht with
  | hand _ hg => simpa using hg.quiet (e := .acked c' quarantined) nofun
  | go _ _ hg => exact hg.quiet nofun
  | ack _ _ => simp [hc]
  | succeed _ _ hr => simpa using hr.quiet (e := .acked c' quarantined) nofun
  | fail _ hr => exact hr.quiet nofun
  | retry _ hr => exact hr.quiet nofun
  | _ => simp

/-! ### Runs -/

variable {s s' : State Copy}

/-- Rows, calls and statements in flight say no more than is in the log. -/
structure Accounted (D : Deployment Copy) (s : State Copy) : Prop where
  rows : ∀ id, ∀ row ∈ s.rows id, RowEvidence D s.log id row
  orphans : ∀ o ∈ s.orphans, o.2.Backed D s.log o.1
  calls : ∀ c, (s.handles c).Backed D s.log c
  grounded : Grounded (AckRule D) s.log

theorem State.InFlight.backed {q : Statement} (hq : s.InFlight D id q) (ha : Accounted D s) :
    q.Backed D s.log id := by
  rcases hq with ⟨c, hq, rfl⟩ | hq | ⟨_, rfl⟩
  · exact pending_backed hq (ha.calls c).phase
  · exact ha.orphans _ hq
  · trivial

theorem accounted_execute {q : Statement} (received : Timestamp) (ha : Accounted D s)
    (hq : q.Backed D s.log id) : Accounted D (s.execute id q received) := by
  rcases execute_cases s id q received with ⟨_, heq⟩ | ⟨row', hw, heq⟩ <;> rw [heq]
  · exact ha
  refine ⟨fun id' row hrow => ?_, fun o ho => (ha.orphans o ho).mono _,
    fun c => (ha.calls c).extend (by simp), ha.grounded.concat (ackRule_other (by simp) (by simp))⟩
  by_cases hid : id' = id
  · subst hid
    obtain rfl : row' = row := by simpa using hrow
    exact write_evidence hq (ha.rows id') hw
  · have hold : s.rows id' = some row := by simpa [Function.update_of_ne hid] using hrow
    exact (ha.rows id' row hold).mono _

/-- A quarantine that wrote is in the log with its bytes. -/
theorem quarantine_stored {received : Timestamp} {row : InboundDelivery}
    (hw : s.written (D.deliveryId c) (.quarantine (D.content c)) received = some row) :
    Stored D (s.execute (D.deliveryId c) (.quarantine (D.content c)) received).log
      (D.deliveryId c) := by
  have hbody : row.originalBody = some (D.content c) := by
    unfold State.written at hw
    cases hrow : s.rows (D.deliveryId c) with
    | none => simp [hrow, Statement.write] at hw
    | some old =>
      simp only [hrow, Statement.write, Option.bind_some, InboundDelivery.quarantine,
        Option.ite_none_right_eq_some, Option.some.injEq] at hw
      obtain ⟨_, rfl⟩ := hw
      rfl
  refine ⟨c, rfl, ?_⟩
  simp [State.execute, hw, Statement.event, hbody]

/-- The log grows. -/
theorem execute_log (s : State Copy) (id : String) (q : Statement) (received : Timestamp) :
    ∃ events, (s.execute id q received).log = s.log ++ events := by
  rcases execute_cases s id q received with ⟨_, heq⟩ | ⟨row, _, heq⟩ <;> rw [heq]
  · exact ⟨[], (List.append_nil _).symm⟩
  · exact ⟨_, rfl⟩

/-- The answer to a statement says no more than the log, once the statement is in it. -/
theorem answer_backed {p : Phase} {q : Statement} {received : Timestamp}
    (hq : D.pending c p = some q) (hb : p.Backed D s.log c) :
    (p.answer s.nextToken (s.written (D.deliveryId c) q received)).Backed D
      (s.execute (D.deliveryId c) q received).log c := by
  cases pending_cases hq with
  | quarantine =>
    cases hw : s.written (D.deliveryId c) (.quarantine (D.content c)) received with
    | none => trivial
    | some row => exact quarantine_stored hw
  | @recordCompletion claimed =>
    obtain ⟨events, hlog⟩ := execute_log s (D.deliveryId c) (.recordCompletion claimed.leaseToken)
      received
    rw [hlog]
    exact hb.mono events
  | _ => trivial

variable [DecidableEq Copy] {e : Option (String × Statement × Timestamp)}

theorem accounted_step (hst : Stepped D s e s') (ha : Accounted D s) : Accounted D s' := by
  cases hst with
  | tick _ => exact ⟨ha.rows, ha.orphans, ha.calls, ha.grounded⟩
  | @turn c h' events orphans ht ho =>
    obtain ⟨hb, hl⟩ := turned_backed ht (ha.calls c) ha.grounded
    refine ⟨fun id row hrow => (ha.rows id row hrow).mono events,
      fun o hin => ((ho o hin).backed ha).mono events, fun c' => ?_, hl⟩
    by_cases hc : c' = c
    · subst hc
      simpa using hb
    · simpa [put_other hc] using (ha.calls c').extend (turned_acked ht hc)
  | @read c received hp hr =>
    refine ⟨ha.rows, ha.orphans, fun c' => ?_, ha.grounded⟩
    by_cases hc : c' = c
    · subst hc
      rw [put_self]
      have hb := ha.calls c'
      refine ⟨hb.stopped, ?_, fun q hin => absurd hin (hb.unacked (by simp [hp]) q)⟩
      cases hrow : s.rows (D.deliveryId c') with
      | none => trivial
      | some row =>
        exact ⟨(ha.rows _ row hrow).completed, (ha.rows _ row hrow).quarantined⟩
    · simpa [put_other hc] using ha.calls c'
  | @run c q received hq hr =>
    have ha' := accounted_execute received ha (pending_backed hq (ha.calls c).phase)
    refine ⟨ha'.rows, ha'.orphans, fun c' => ?_, ha'.grounded⟩
    by_cases hc : c' = c
    · subst hc
      have hb' := ha'.calls c'
      rw [execute_handles] at hb'
      rw [put_self]
      refine ⟨hb'.stopped, answer_backed hq (ha.calls c').phase, fun q' hin => absurd hin (hb'.unacked ?_ q')⟩
      rintro heq
      simp [heq, Deployment.pending] at hq
    · simpa [put_other hc] using ha'.calls c'
  | @server id q received orphans hq hr ho =>
    have ha' := accounted_execute received ha (hq.backed ha)
    exact ⟨ha'.rows, fun o hin => by simpa using ha'.orphans o (by simpa using ho o hin), ha'.calls,
      ha'.grounded⟩

theorem accounted_reached (hs : D.machine.Reached s) : Accounted D s := by
  refine hs.invariant ⟨?_, ?_, fun c => ⟨?_, trivial, ?_⟩, grounded_nil⟩ fun hstep ha =>
    accounted_step (step_cases hstep) ha
  all_goals simp [Deployment.machine]

/-- The acknowledgements of a copy. -/
def acks (c : Copy) (log : List (Event Copy)) : List (Event Copy) :=
  log.filter fun e => e = .acked c true ∨ e = .acked c false

/-- A log in which every acknowledgement is the first has at most one. -/
theorem acks_le_one (hl : Grounded (AckRule D) log) (c : Copy) : (acks c log).length ≤ 1 := by
  induction log using List.reverseRecOn with
  | nil => simp [acks]
  | append_singleton log e ih =>
    have hlog : Grounded (AckRule D) log := fun before e' after heq =>
      hl before e' (after ++ [e]) (by simp [heq])
    have hle := ih hlog
    have hrule := (hl log e [] rfl).1 c
    unfold acks at hle ⊢
    rw [List.filter_append, List.length_append]
    by_cases he : e = .acked c true ∨ e = .acked c false
    · have hnone : ∀ q, .acked c q ∉ log := by
        rcases he with he | he
        · exact (hrule true he).1
        · exact (hrule false he).1
      have hnil : log.filter (fun e => e = .acked c true ∨ e = .acked c false) = [] := by
        refine List.filter_eq_nil_iff.2 fun e' hin => ?_
        simp only [decide_eq_true_eq, not_or]
        exact ⟨fun h => hnone true (h ▸ hin), fun h => hnone false (h ▸ hin)⟩
      rw [hnil, List.length_nil, Nat.zero_add]
      exact List.length_filter_le _ [e]
    · simpa [he] using hle

/-- A copy is acknowledged at most once, only after some `work` for the same bytes returned without
    error or its row was quarantined with these bytes; and a call that returned had acknowledged its
    copy or had been told to stop. -/
structure AckJustified (D : Deployment Copy) (log : List (Event Copy)) : Prop where
  once : ∀ c, (acks c log).length ≤ 1
  evidence : ∀ before c quarantined after, log = before ++ .acked c quarantined :: after →
    (∃ c', D.content c' = D.content c ∧ .succeeded c' ∈ before) ∨
      .row (D.deliveryId c) (.quarantined (some (D.content c))) ∈ before
  returned : ∀ before c after, log = before ++ .returned c :: after →
    (∃ quarantined, .acked c quarantined ∈ before) ∨ .signalled c ∈ before

/-- In every run, whatever fails, expires, crashes or comes late. -/
theorem ack_justified (hid : D.CollisionFree) (hs : D.machine.Reached s) :
    AckJustified D s.log := by
  have hl := (accounted_reached hs).grounded
  refine ⟨acks_le_one hl, fun before c q after heq => ?_, fun before c after heq =>
    (hl before _ after heq).2 c rfl⟩
  rcases ((hl before _ after heq).1 c q rfl).2 with ⟨c', hc', hin⟩ | ⟨c', hc', hin⟩
  · exact .inl ⟨c', hid c' c hc', hin⟩
  · exact .inr (hid c' c hc' ▸ hin)

theorem threeSetters_collisionFree : threeSetters.CollisionFree := by
  unfold Deployment.CollisionFree
  decide +kernel

theorem ack_justified_completed : ∃ s : State (Fin 3),
    .acked 0 false ∈ s.log ∧ AckJustified threeSetters s.log := by
  obtain ⟨s, hs, hp⟩ := threeSetters.machine.reached_of_exec
    (claims 0 ++ completes 0 ++ [.turn 0 .resume])
    (fun s => decide (.acked 0 false ∈ s.log)) (by decide +kernel)
  exact ⟨s, of_decide_eq_true hp, ack_justified threeSetters_collisionFree hs⟩

end

end CinemaLoyalty
