import CinemaLoyalty.Delivery.Machine

/-! @svc DeliveryBudget | layer:property | source:src/loyalty/consumers/rmq-delivery.service.ts, src/loyalty/consumers/quarantine-replay.service.ts

    The budget and the lease of a row, in every run. `Sound` relates a row to the history of its
    leases; each statement keeps it (`write_sound`), whoever issued it and however late. A call
    starts `work` under the token its own claim was granted, so no claim is used twice. -/

namespace CinemaLoyalty
open Leasing Transition

/-! ### One row -/

/-- A row against the history of its leases. -/
structure InboundDelivery.Sound (row : InboundDelivery)
    (history : List (Leasing.Event ℕ Timestamp)) (now : Timestamp) : Prop where
  nonneg : 0 ≤ row.attempts
  within : row.attempts ≤ row.maxAttempts
  budget : row.attempts = spent history
  fenced : Fenced row.lease history now
  unleased : row.quarantineRequired = true ∨ row.completedAt.isSome = true ∨
    row.quarantinedAt.isSome = true → row.lease = none
  exclusive : row.completedAt.isSome = true → row.quarantineRequired = false ∧ row.quarantinedAt = none

/-- What the event of a statement adds to the history. -/
def RowEvent.leaseEvents : RowEvent → List (Leasing.Event ℕ Timestamp)
  | .lease e => [e]
  | .quarantined _ => []

/-- An admission comes with a budget. -/
def Statement.Budgeted : Statement → Prop
  | .insert _ maxAttempts => 1 ≤ maxAttempts
  | _ => True

namespace InboundDelivery
variable {row row' : InboundDelivery} {history : List (Leasing.Event ℕ Timestamp)}
  {now received : Timestamp} {token : ℕ}

theorem Sound.later (hs : row.Sound history now) {now' : Timestamp} (h : now ≤ now') :
    row.Sound history now' := { hs with fenced := hs.fenced.later h }

/-- The lease of the owner. -/
theorem OwnedBy.lease (h : row.OwnedBy token now) : ∃ l, row.lease = some l ∧ l.token = token := by
  obtain ⟨l, hl, ht, _⟩ := h
  exact ⟨l, hl, ht⟩

/-- While a row is leased nothing has been decided about it. -/
theorem Sound.undecided (hs : row.Sound history now) {l : Lease ℕ Timestamp}
    (hl : row.lease = some l) : row.quarantineRequired = false ∧ row.completedAt = none ∧
      row.quarantinedAt = none := by
  have h : ¬(row.quarantineRequired = true ∨ row.completedAt.isSome = true ∨
      row.quarantinedAt.isSome = true) := by
    intro hq
    have hnone := hs.unleased hq
    simp [hl] at hnone
  simpa using h

theorem sound_admitted {operation : Operation} {maxAttempts : ℤ} (hm : 1 ≤ maxAttempts) :
    InboundDelivery.Sound { operation, maxAttempts, nextAttemptAt := received } [.reset] now where
  nonneg := le_rfl
  within := by simp only; omega
  budget := rfl
  fenced := fenced_nil.reset
  unleased := fun _ => rfl
  exclusive := by simp

theorem Sound.restart {maxAttempts : ℤ} (hs : row.Sound history now) (hm : 1 ≤ maxAttempts)
    (hw : row.restart maxAttempts now = some row') : row'.Sound (history ++ [.reset]) now := by
  simp only [InboundDelivery.restart, Option.ite_none_right_eq_some, Option.some.injEq] at hw
  obtain ⟨⟨_, hc⟩, rfl⟩ := hw
  have hfree : row.lease = none := hs.unleased (.inr (.inl hc))
  exact
    { nonneg := le_rfl
      within := by simp only; omega
      budget := by simp [Leasing.Event.count]
      fenced := hs.fenced.reset
      unleased := fun _ => hfree
      exclusive := by simp }

theorem Sound.claim {leaseMs : ℤ} (hs : row.Sound history now) (hr : received ≤ now)
    (ht : token ∉ tokens history) (hw : row.claim leaseMs token received now = some row') :
    row'.Sound (history ++ [.granted ⟨token, now + milliseconds leaseMs⟩]) now := by
  simp only [InboundDelivery.claim, Option.ite_none_right_eq_some, Option.some.injEq] at hw
  obtain ⟨⟨hlt, hq, hc, hq', _, hover⟩, rfl⟩ := hw
  have hfree : ∀ l ∈ row.lease, l.expiresAt ≤ now := fun l hl => (hover l hl).trans hr
  have hpos := hs.nonneg
  exact
    { nonneg := by simp only; omega
      within := by simp only; omega
      budget := by simp [Leasing.Event.count, hs.budget]
      fenced := hs.fenced.grant hfree ht
      unleased := by simp [hq, hc, hq']
      exclusive := by simp [hc] }

theorem Sound.release (hs : row.Sound history now) (ho : row.OwnedBy token now) :
    Fenced none (history ++ [.released token]) now := by
  obtain ⟨l, hl, rfl⟩ := ho.lease
  have hf := hs.fenced
  rw [hl] at hf
  exact hf.release

theorem Sound.recordFailure {code : String} {terminal : Bool} {waitMs : ℤ}
    (hs : row.Sound history now)
    (hw : row.recordFailure token code terminal waitMs now = some row') :
    row'.Sound (history ++ [.released token]) now := by
  simp only [InboundDelivery.recordFailure, Option.ite_none_right_eq_some, Option.some.injEq] at hw
  obtain ⟨⟨ho, hc, hq⟩, rfl⟩ := hw
  exact
    { nonneg := hs.nonneg
      within := hs.within
      budget := by simp [Leasing.Event.count, hs.budget]
      fenced := hs.release ho
      unleased := fun _ => rfl
      exclusive := by simp [hc] }

theorem Sound.recordCompletion (hs : row.Sound history now)
    (hw : row.recordCompletion token now = some row') :
    row'.Sound (history ++ [.released token]) now := by
  simp only [InboundDelivery.recordCompletion, Option.ite_none_right_eq_some,
    Option.some.injEq] at hw
  obtain ⟨⟨ho, hc, hq⟩, rfl⟩ := hw
  obtain ⟨l, hl, _⟩ := ho.lease
  exact
    { nonneg := hs.nonneg
      within := hs.within
      budget := by simp [Leasing.Event.count, hs.budget]
      fenced := hs.release ho
      unleased := fun _ => rfl
      exclusive := fun _ => ⟨(hs.undecided hl).1, hq⟩ }

theorem Sound.quarantine {body : Buffer} (hs : row.Sound history now) (hr : received ≤ now)
    (hw : row.quarantine body received now = some row') : row'.Sound history now := by
  simp only [InboundDelivery.quarantine, Option.ite_none_right_eq_some, Option.some.injEq] at hw
  obtain ⟨⟨hc, _, _, hover⟩, rfl⟩ := hw
  exact
    { nonneg := hs.nonneg
      within := hs.within
      budget := hs.budget
      fenced := hs.fenced.lapse fun l hl => (hover l hl).trans hr
      unleased := fun _ => rfl
      exclusive := by simp [hc] }

theorem Sound.replay {replayId : Uuid} (hs : row.Sound history now)
    (hw : row.replay replayId now = some row') : row'.Sound (history ++ [.reset]) now := by
  simp only [InboundDelivery.replay, Option.ite_none_right_eq_some, Option.some.injEq] at hw
  obtain ⟨⟨_, _, hover⟩, rfl⟩ := hw
  exact
    { nonneg := le_rfl
      within := hs.nonneg.trans hs.within
      budget := by simp [Leasing.Event.count]
      fenced := (hs.fenced.lapse hover).reset
      unleased := fun _ => rfl
      exclusive := by simp }

end InboundDelivery

/-- Every statement leaves a sound row. -/
theorem write_sound {q : Statement} {token : ℕ} {received now : Timestamp}
    {row : Option InboundDelivery} {row' : InboundDelivery}
    {history : List (Leasing.Event ℕ Timestamp)} (hq : q.Budgeted) (hr : received ≤ now)
    (ht : token ∉ tokens history) (hnone : row = none → history = [])
    (hs : ∀ r ∈ row, r.Sound history now) (hw : q.write token received now row = some row') :
    row'.Sound (history ++ (q.event token now row').leaseEvents) now := by
  cases row with
  | none =>
    cases q with
    | insert operation maxAttempts =>
      cases hw
      rw [hnone rfl]
      exact InboundDelivery.sound_admitted hq
    | _ => cases hw
  | some row =>
    have hs := hs row rfl
    cases q with
    | insert operation maxAttempts => exact hs.restart hq hw
    | claim leaseMs => exact hs.claim hr ht hw
    | recordFailure owner code terminal waitMs => exact hs.recordFailure hw
    | recordCompletion owner => exact hs.recordCompletion hw
    | quarantine body => simpa [Statement.event, RowEvent.leaseEvents] using hs.quarantine hr hw
    | replay replayId => exact hs.replay hw

/-- An outcome under a token that no longer owns the row writes nothing. -/
theorem write_stale {q : Statement} {token owner : ℕ} {received now : Timestamp}
    {row : InboundDelivery} (hq : q.owner = some owner) (ho : ¬row.OwnedBy owner now) :
    q.write token received now (some row) = none := by
  cases q with
  | recordFailure owner' code terminal waitMs =>
    obtain rfl : owner' = owner := by simpa [Statement.owner] using hq
    simp [Statement.write, InboundDelivery.recordFailure, ho]
  | recordCompletion owner' =>
    obtain rfl : owner' = owner := by simpa [Statement.owner] using hq
    simp [Statement.write, InboundDelivery.recordCompletion, ho]
  | _ => cases hq

/-- Nothing writes a completed purchase. -/
theorem write_completed {q : Statement} {token : ℕ} {received now : Timestamp}
    {row : InboundDelivery} {history : List (Leasing.Event ℕ Timestamp)}
    (hs : row.Sound history now) (hop : row.operation = .TicketPurchased)
    (hc : row.completedAt.isSome = true) : q.write token received now (some row) = none := by
  have hne : row.completedAt ≠ none := by
    intro h
    simp [h] at hc
  cases q with
  | insert _ _ => simp [Statement.write, InboundDelivery.restart, hop]
  | claim _ => simp [Statement.write, InboundDelivery.claim, hne]
  | recordFailure _ _ _ _ => simp [Statement.write, InboundDelivery.recordFailure, hne]
  | recordCompletion _ => simp [Statement.write, InboundDelivery.recordCompletion, hne]
  | quarantine _ => simp [Statement.write, InboundDelivery.quarantine, hne]
  | replay _ => simp [Statement.write, InboundDelivery.replay, (hs.exclusive hc).2]

/-! ### All rows -/

section journal
variable {Copy : Type}

/-- Every row is sound, and tokens are drawn in order. -/
structure Journal (s : State Copy) : Prop where
  sound : ∀ id, ∀ row ∈ s.rows id, row.Sound (leaseHistory id s.log) s.now
  absent : ∀ id, s.rows id = none → leaseHistory id s.log = []
  fresh : ∀ id, ∀ t ∈ tokens (leaseHistory id s.log), t < s.nextToken

variable {s : State Copy} {id : String} {q : Statement} {received : Timestamp}

theorem leaseHistory_row (id : String) (log : List (Event Copy)) (id' : String) (e : RowEvent) :
    leaseHistory id (log ++ [.row id' e]) =
      leaseHistory id log ++ if id' = id then e.leaseEvents else [] := by
  rw [leaseHistory_append]
  cases e <;> by_cases h : id' = id <;> simp [leaseHistory, Event.leaseEvent, RowEvent.leaseEvents, h]

/-- The only token an event can add is the one the statement drew. -/
theorem tokens_event {token : ℕ} {now : Timestamp} {row : InboundDelivery} {t : ℕ}
    (h : t ∈ tokens (q.event token now row).leaseEvents) : t = token := by
  cases q <;> simp_all [Statement.event, RowEvent.leaseEvents, tokens, Leasing.Event.grant]

theorem journal_execute (hj : Journal s) (hq : q.Budgeted) (hr : received ≤ s.now) :
    Journal (s.execute id q received) := by
  rcases execute_cases s id q received with ⟨_, heq⟩ | ⟨row', hw, heq⟩ <;> rw [heq]
  · exact hj
  have hlt : s.nextToken ∉ tokens (leaseHistory id s.log) :=
    fun h => absurd (hj.fresh id _ h) (lt_irrefl _)
  have hsound := write_sound hq hr hlt (hj.absent id) (hj.sound id) hw
  refine ⟨fun id' row hrow => ?_, fun id' hnone => ?_, fun id' t ht => ?_⟩
  · simp only [leaseHistory_row]
    by_cases hid : id = id'
    · subst hid
      obtain rfl : row' = row := by simpa using hrow
      simpa using hsound
    · rw [if_neg hid, List.append_nil]
      exact hj.sound id' row (by simpa [Function.update_of_ne (Ne.symm hid)] using hrow)
  · have hid : ¬id = id' := by
      rintro rfl
      simp at hnone
    simp only [leaseHistory_row, if_neg hid, List.append_nil]
    exact hj.absent id' (by simpa [Function.update_of_ne (Ne.symm hid)] using hnone)
  · simp only [leaseHistory_row, tokens_append, List.mem_append] at ht
    rcases ht with ht | ht
    · exact (hj.fresh id' t ht).trans (Nat.lt_succ_self _)
    · split at ht
      · rw [tokens_event ht]
        exact Nat.lt_succ_self _
      · cases ht

/-- The journal does not depend on anything but rows, leases and tokens. -/
theorem Journal.congr {s' : State Copy} (hj : Journal s) (hnow : s.now ≤ s'.now)
    (hrows : s'.rows = s.rows) (hlog : ∀ id, leaseHistory id s'.log = leaseHistory id s.log)
    (htok : s.nextToken ≤ s'.nextToken) : Journal s' := by
  refine ⟨fun id row hrow => ?_, fun id hnone => ?_, fun id t ht => ?_⟩
  · rw [hlog]
    rw [hrows] at hrow
    exact (hj.sound id row hrow).later hnow
  · rw [hlog]
    exact hj.absent id (hrows ▸ hnone)
  · rw [hlog] at ht
    exact (hj.fresh id t ht).trans_le htok

variable {D : Deployment Copy}

theorem pending_budgeted {c : Copy} {p : Phase} (h : D.pending c p = some q) : q.Budgeted := by
  cases pending_cases h with
  | insert => exact (D.options c).maxAttempts_range.1
  | _ => trivial

/-- The statements whose caller has gone came with a budget too. -/
def Orphans (s : State Copy) : Prop := ∀ o ∈ s.orphans, o.2.Budgeted

theorem State.InFlight.budgeted (h : s.InFlight D id q) (ho : Orphans s) : q.Budgeted := by
  rcases h with ⟨c, hq, _⟩ | hq | ⟨_, rfl⟩
  · exact pending_budgeted hq
  · exact ho _ hq
  · trivial

variable [DecidableEq Copy] {s' : State Copy} {e : Option (String × Statement × Timestamp)}

theorem orphans_step (hs : Stepped D s e s') (ho : Orphans s) : Orphans s' := by
  cases hs with
  | tick _ => exact ho
  | turn _ hsub => exact fun o h => (hsub o h).budgeted ho
  | read _ _ => exact ho
  | run _ _ => simpa [Orphans] using ho
  | server _ _ hsub => exact fun o h => ho o (hsub o h)

theorem journal_step (hs : Stepped D s e s') (ho : Orphans s) (hj : Journal s) : Journal s' := by
  cases hs with
  | tick h => exact hj.congr h rfl (fun _ => rfl) le_rfl
  | turn ht _ =>
    exact hj.congr le_rfl rfl (fun id => by simp [leaseHistory_turned ht id]) le_rfl
  | read _ _ => exact hj.congr le_rfl rfl (fun _ => rfl) le_rfl
  | run hq hr =>
    exact (journal_execute hj (pending_budgeted hq) hr).congr (by simp) rfl (fun _ => rfl) le_rfl
  | server hq hr _ =>
    exact (journal_execute hj (hq.budgeted ho) hr).congr le_rfl rfl (fun _ => rfl) le_rfl

theorem journal_reached (hs : D.machine.Reached s) : Orphans s ∧ Journal s := by
  refine hs.invariant (I := fun s => Orphans s ∧ Journal s) ?_ fun hstep ⟨ho, hj⟩ => ?_
  · refine ⟨?_, ?_, ?_, ?_⟩ <;> simp [Orphans, Deployment.machine]
  · exact ⟨orphans_step (step_cases hstep) ho, journal_step (step_cases hstep) ho hj⟩

end journal

/-! ### Claims and starts -/

/-- The token of a claim that has been answered and not been used yet. -/
def Phase.granted : Phase → Option ℕ
  | .claiming (some (some claimed)) => some claimed.leaseToken
  | _ => none

section starts
variable {Copy : Type} {D : Deployment Copy} {s s' : State Copy}

/-- `work` starts under a token granted for its row that no other start has used. -/
def StartRule (D : Deployment Copy) (before : List (Event Copy)) (e : Event Copy) : Prop :=
  ∀ c t, e = .started c t →
    t ∈ tokens (leaseHistory (D.deliveryId c) before) ∧ ∀ c', .started c' t ∉ before

/-- Granted tokens are used once, by the call that got them. -/
structure Starts (D : Deployment Copy) (s : State Copy) : Prop where
  unused : ∀ c t, (s.handles c).phase.granted = some t →
    t ∈ tokens (leaseHistory (D.deliveryId c) s.log) ∧ ∀ c', .started c' t ∉ s.log
  apart : ∀ c c' t, (s.handles c).phase.granted = some t →
    (s.handles c').phase.granted = some t → c = c'
  known : ∀ c t, .started c t ∈ s.log → t ∈ tokens (leaseHistory (D.deliveryId c) s.log)
  grounded : Grounded (StartRule D) s.log

theorem tokens_mono {id : String} {log : List (Event Copy)} (events : List (Event Copy)) {t : ℕ}
    (h : t ∈ tokens (leaseHistory id log)) : t ∈ tokens (leaseHistory id (log ++ events)) := by
  simp only [leaseHistory_append, tokens_append, List.mem_append]
  exact .inl h

/-- Steps that neither start `work` nor answer a claim. -/
theorem Starts.extend (hs : Starts D s) {events : List (Event Copy)}
    (hlog : s'.log = s.log ++ events) (hno : ∀ c t, .started c t ∉ events)
    (hgr : ∀ c t, (s'.handles c).phase.granted = some t → (s.handles c).phase.granted = some t) :
    Starts D s' := by
  have hin : ∀ c t, .started c t ∈ s'.log → .started c t ∈ s.log := by
    intro c t h
    rw [hlog] at h
    exact (List.mem_append.1 h).resolve_right (hno c t)
  refine ⟨fun c t h => ?_, fun c c' t h h' => hs.apart c c' t (hgr c t h) (hgr c' t h'),
    fun c t h => ?_, ?_⟩
  · obtain ⟨ht, hn⟩ := hs.unused c t (hgr c t h)
    exact ⟨hlog ▸ tokens_mono events ht, fun c' hc' => hn c' (hin c' t hc')⟩
  · exact hlog ▸ tokens_mono events (hs.known c t (hin c t h))
  · rw [hlog]
    refine hs.grounded.append fun before e after heq c t he => absurd ?_ (hno c t)
    rw [heq, he]
    simp

/-- What a turn does to the claim of its call. -/
theorem turned_granted {operation : Operation} {c : Copy} {h h' : Handle}
    {events : List (Event Copy)} (ht : Turned operation c h h' events) :
    (∃ claimed : Claimed, h.phase = .claiming (some (some claimed)) ∧ h'.phase.granted = none ∧
        events = [.started c claimed.leaseToken]) ∨
      (∀ t, h'.phase.granted = some t → h.phase.granted = some t) ∧
        ∀ c' t, .started c' t ∉ events := by
  have goes : ∀ {h h' : Handle} {events : List (Event Copy)}, Goes c h h' events →
      h'.phase.granted = none ∧ ∀ c' t, .started c' t ∉ events := by
    intro _ _ _ hg
    refine ⟨?_, fun _ _ => hg.quiet nofun⟩
    obtain _ | ⟨_ | _ | _ | _ | _, _⟩ := hg <;> rfl
  have records : ∀ {h h' : Handle} {events : List (Event Copy)} {claimed : Claimed}
      {failure : Option Failure}, Records c h claimed failure h' events →
      h'.phase.granted = none ∧ ∀ c' t, .started c' t ∉ events := by
    intro _ _ _ _ _ hr
    refine ⟨?_, fun _ _ => hr.quiet nofun⟩
    cases hr <;> rfl
  cases ht with
  | start hp => exact .inl ⟨_, hp, rfl, rfl⟩
  | signal => exact .inr ⟨fun _ h => h, by simp⟩
  | hand _ hg => exact .inr ⟨by simp [(goes hg).1], by simpa using (goes hg).2⟩
  | go _ _ hg => exact .inr ⟨by simp [(goes hg).1], (goes hg).2⟩
  | ack _ _ => exact .inr ⟨by simp [Phase.granted], by simp⟩
  | commit _ => exact .inr ⟨by simp [Phase.granted], by simp⟩
  | commitLate _ => exact .inr ⟨fun _ h => h, by simp⟩
  | succeed _ _ hr => exact .inr ⟨by simp [(records hr).1], by simpa using (records hr).2⟩
  | fail _ hr => exact .inr ⟨by simp [(records hr).1], (records hr).2⟩
  | retry _ hr => exact .inr ⟨by simp [(records hr).1], (records hr).2⟩
  | backOff _ => exact .inr ⟨by simp [Phase.granted], by simp⟩
  | crash _ _ => exact .inr ⟨by simp [Phase.granted], by simp⟩

/-- The answer to a statement holds a token only if it is the claim that drew it. -/
theorem answer_granted {c : Copy} {q : Statement} {p : Phase} {token t : ℕ}
    {row : Option InboundDelivery} (hq : D.pending c p = some q)
    (h : (p.answer token row).granted = some t) :
    t = token ∧ row.isSome = true ∧ ∃ leaseMs, q = .claim leaseMs := by
  cases pending_cases hq with
  | claim =>
    cases row with
    | none => cases h
    | some row => exact ⟨(Option.some.inj h).symm, rfl, _, rfl⟩
  | _ => cases h

theorem starts_execute (id : String) (q : Statement) (received : Timestamp) (hs : Starts D s) :
    Starts D (s.execute id q received) := by
  rcases execute_cases s id q received with ⟨_, heq⟩ | ⟨row, _, heq⟩ <;> rw [heq]
  · exact hs
  · exact hs.extend rfl (by simp) fun _ _ h => h

variable [DecidableEq Copy] {e : Option (String × Statement × Timestamp)}

/-- A call whose phase holds no token. -/
theorem granted_put {c c' : Copy} {h' : Handle} {t : ℕ}
    (hk : h'.phase.granted = some t → (s.handles c).phase.granted = some t)
    (h : ((s.put c h').handles c').phase.granted = some t) :
    (s.handles c').phase.granted = some t := by
  by_cases hc : c' = c
  · subst hc
    exact hk (by simpa using h)
  · simpa [put_other hc] using h

/-- The token moves from the answer of the claim to the start. -/
theorem Starts.used (hs : Starts D s) {c : Copy} {h' : Handle} {t₀ : ℕ}
    (hg : (s.handles c).phase.granted = some t₀) (hnone : h'.phase.granted = none)
    (hlog : s'.log = s.log ++ [.started c t₀]) (hh : s'.handles = (s.put c h').handles) :
    Starts D s' := by
  obtain ⟨htok, hnew⟩ := hs.unused c t₀ hg
  have hother : ∀ c' t, (s'.handles c').phase.granted = some t →
      c' ≠ c ∧ (s.handles c').phase.granted = some t := by
    intro c' t h
    rw [hh] at h
    refine ⟨?_, granted_put (by simp [hnone]) h⟩
    rintro rfl
    simp [hnone] at h
  refine ⟨fun c' t h => ?_,
    fun c₁ c₂ t h₁ h₂ => hs.apart c₁ c₂ t (hother c₁ t h₁).2 (hother c₂ t h₂).2, fun c' t h => ?_, ?_⟩
  · obtain ⟨hc, h⟩ := hother c' t h
    obtain ⟨ht', hn'⟩ := hs.unused c' t h
    refine ⟨hlog ▸ tokens_mono _ ht', fun c'' hin => ?_⟩
    rw [hlog] at hin
    rcases List.mem_append.1 hin with hin | hin
    · exact hn' c'' hin
    · obtain ⟨_, rfl⟩ : c'' = c ∧ t = t₀ := by simpa using hin
      exact hc (hs.apart c' c t h hg)
  · rw [hlog] at h ⊢
    rcases List.mem_append.1 h with h | h
    · exact tokens_mono _ (hs.known c' t h)
    · obtain ⟨rfl, rfl⟩ : c' = c ∧ t = t₀ := by simpa using h
      exact tokens_mono _ htok
  · rw [hlog]
    refine hs.grounded.concat fun c' t he => ?_
    cases he
    exact ⟨htok, hnew⟩

/-- A claim is answered with a token that is in no answer and that no start has used. -/
theorem Starts.claimed (hs : Starts D s) {c : Copy} {h' : Handle} {t₀ : ℕ} {expiresAt : Timestamp}
    (hnew : ∀ id, t₀ ∉ tokens (leaseHistory id s.log)) (hg : h'.phase.granted = some t₀)
    (hlog : s'.log = s.log ++ [.row (D.deliveryId c) (.lease (.granted ⟨t₀, expiresAt⟩))])
    (hh : s'.handles = (s.put c h').handles) : Starts D s' := by
  have hcases : ∀ c' t, (s'.handles c').phase.granted = some t →
      c' = c ∧ t = t₀ ∨ t ≠ t₀ ∧ (s.handles c').phase.granted = some t := by
    intro c' t h
    rw [hh] at h
    by_cases hc : c' = c
    · subst hc
      rw [put_self, hg] at h
      exact .inl ⟨rfl, (Option.some.inj h).symm⟩
    · rw [put_other hc] at h
      refine .inr ⟨?_, h⟩
      rintro rfl
      exact hnew _ (hs.unused c' t h).1
  have hin : ∀ c' t, .started c' t ∈ s'.log → .started c' t ∈ s.log := by
    intro c' t h
    simpa [hlog] using h
  refine ⟨fun c' t h => ?_, fun c₁ c₂ t h₁ h₂ => ?_, fun c' t h => ?_, ?_⟩
  · rcases hcases c' t h with ⟨rfl, rfl⟩ | ⟨_, h⟩
    · refine ⟨?_, fun c'' h => hnew _ (hs.known c'' t (hin c'' t h))⟩
      rw [hlog, leaseHistory_row, if_pos rfl, tokens_append]
      exact List.mem_append_right _ (by simp [RowEvent.leaseEvents])
    · obtain ⟨ht, hn⟩ := hs.unused c' t h
      exact ⟨hlog ▸ tokens_mono _ ht, fun c'' h => hn c'' (hin c'' t h)⟩
  · rcases hcases c₁ t h₁ with ⟨rfl, rfl⟩ | ⟨hne, h₁⟩
    · rcases hcases c₂ t h₂ with ⟨rfl, _⟩ | ⟨hne, _⟩
      · rfl
      · exact absurd rfl hne
    · rcases hcases c₂ t h₂ with ⟨_, rfl⟩ | ⟨_, h₂⟩
      · exact absurd rfl hne
      · exact hs.apart c₁ c₂ t h₁ h₂
  · exact hlog ▸ tokens_mono _ (hs.known c' t (hin c' t h))
  · rw [hlog]
    exact hs.grounded.concat fun c' t he => by cases he

theorem starts_turn {c : Copy} {h' : Handle} {events : List (Event Copy)}
    {orphans : List (String × Statement)}
    (ht : Turned (D.operation c) c (s.handles c) h' events) (hs : Starts D s) :
    Starts D { s.put c h' with log := s.log ++ events, orphans } := by
  rcases turned_granted ht with ⟨claimed, hp, hnone, rfl⟩ | ⟨hkeep, hno⟩
  · exact hs.used (by rw [hp]; rfl) hnone rfl rfl
  · exact hs.extend rfl hno fun c' t => granted_put (hkeep t)

theorem starts_run {c : Copy} {q : Statement} {received : Timestamp}
    (hq : D.pending c (s.handles c).phase = some q) (hj : Journal s) (hs : Starts D s) :
    Starts D ((s.execute (D.deliveryId c) q received).put c
      ((s.handles c).answered s.nextToken (s.written (D.deliveryId c) q received))) := by
  set h' := (s.handles c).answered s.nextToken (s.written (D.deliveryId c) q received) with hh'
  cases hg : h'.phase.granted with
  | none =>
    have hs' := starts_execute (D.deliveryId c) q received hs
    exact hs'.extend (List.append_nil _).symm (by simp) fun c' t => granted_put (by simp [hg])
  | some t₀ =>
    obtain ⟨rfl, hsome, leaseMs, rfl⟩ := answer_granted hq hg
    obtain ⟨row, hrow⟩ := Option.isSome_iff_exists.1 hsome
    have hnew : ∀ id, s.nextToken ∉ tokens (leaseHistory id s.log) :=
      fun id h => absurd (hj.fresh id _ h) (lt_irrefl _)
    have hlog : (s.execute (D.deliveryId c) (.claim leaseMs) received).log = s.log ++
        [.row (D.deliveryId c) (.lease (.granted ⟨s.nextToken, s.now + milliseconds leaseMs⟩))] := by
      simp [State.execute, hrow, Statement.event]
    exact hs.claimed hnew hg hlog (by simp [State.put])

theorem starts_step (hst : Stepped D s e s') (hj : Journal s) (hs : Starts D s) : Starts D s' := by
  cases hst with
  | tick _ => exact hs.extend (List.append_nil _).symm (by simp) fun _ _ h => h
  | turn ht _ => exact starts_turn ht hs
  | read _ _ =>
    refine hs.extend (List.append_nil _).symm (by simp) fun c' t h => ?_
    exact granted_put (by simp [Handle.hasRead, Phase.granted]) h
  | run hq _ => exact starts_run hq hj hs
  | server _ _ _ =>
    exact (starts_execute _ _ _ hs).extend (List.append_nil _).symm (by simp) fun _ _ h => h

theorem starts_reached (hs : D.machine.Reached s) : Starts D s := by
  have h : (Orphans s ∧ Journal s) ∧ Starts D s := by
    refine hs.invariant (I := fun s => (Orphans s ∧ Journal s) ∧ Starts D s) ?_
      fun hstep ⟨⟨ho, hj⟩, hs⟩ => ?_
    · refine ⟨journal_reached .refl, ?_, ?_, ?_, grounded_nil⟩ <;>
        simp [Deployment.machine, Phase.granted]
    · have hst := step_cases hstep
      exact ⟨⟨orphans_step hst ho, journal_step hst ho hj⟩, starts_step hst hj hs⟩
  exact h.2

/-! ### What is promised of a row -/

/-- A reachable row of the journal. -/
structure Guarded (D : Deployment Copy) (s : State Copy) (id : String) (row : InboundDelivery) :
    Prop where
  bounds : 0 ≤ row.attempts ∧ row.attempts ≤ row.maxAttempts
  granted : row.attempts = spent (leaseHistory id s.log)
  distinct : (tokens (leaseHistory id s.log)).Nodup
  started : ∀ before c t after, s.log = before ++ .started c t :: after → D.deliveryId c = id →
    t ∈ tokens (leaseHistory id before) ∧ ∀ c', .started c' t ∉ before
  single : ∀ l l', Outstanding (leaseHistory id s.log) l → s.now < l.expiresAt →
    Outstanding (leaseHistory id s.log) l' → s.now < l'.expiresAt → l = l'
  current : ∀ l ∈ row.lease, Outstanding (leaseHistory id s.log) l
  stale : ∀ (q : Statement) (owner : ℕ) (received : Timestamp), q.owner = some owner →
    (∀ l ∈ row.lease, l.token = owner → l.expiresAt ≤ s.now) → s.execute id q received = s
  unleased : row.quarantineRequired = true ∨ row.completedAt.isSome = true ∨
    row.quarantinedAt.isSome = true → row.lease = none
  exclusive : row.completedAt.isSome = true → row.quarantineRequired = false ∧ row.quarantinedAt = none
  final : row.operation = .TicketPurchased → row.completedAt.isSome = true →
    ∀ s', D.machine.Leads s s' →
      s'.rows id = some row ∧ leaseHistory id s'.log = leaseHistory id s.log

omit [DecidableEq Copy] in
/-- An outcome under a token that no longer owns the row changes nothing. -/
theorem execute_stale {id : String} {row : InboundDelivery} {q : Statement} {owner : ℕ}
    {received : Timestamp} (hrow : s.rows id = some row) (hq : q.owner = some owner)
    (ho : ∀ l ∈ row.lease, l.token = owner → l.expiresAt ≤ s.now) :
    s.execute id q received = s := by
  have hnot : ¬row.OwnedBy owner s.now := by
    rintro ⟨l, hl, ht, hlt⟩
    exact absurd hlt (not_lt.2 (ho l hl ht))
  have hw : s.written id q received = none := by
    unfold State.written
    rw [hrow]
    exact write_stale hq hnot
  rcases execute_cases s id q received with ⟨_, heq⟩ | ⟨row', hw', _⟩
  · exact heq
  · simp [hw] at hw'

/-- A completed purchase and the history of its leases. -/
structure Final (s : State Copy) (id : String) (row : InboundDelivery)
    (history : List (Leasing.Event ℕ Timestamp)) : Prop where
  row : s.rows id = some row
  history : leaseHistory id s.log = history

omit [DecidableEq Copy] in
theorem final_execute {id : String} {row : InboundDelivery}
    {history : List (Leasing.Event ℕ Timestamp)} (id' : String) (q : Statement)
    (received : Timestamp) (hop : row.operation = .TicketPurchased) (hc : row.completedAt.isSome = true) (hj : Journal s)
    (hf : Final s id row history) : Final (s.execute id' q received) id row history := by
  rcases execute_cases s id' q received with ⟨_, heq⟩ | ⟨row', hw, heq⟩ <;> rw [heq]
  · exact hf
  have hid : ¬id' = id := by
    rintro rfl
    unfold State.written at hw
    rw [hf.row, write_completed (hj.sound id' row hf.row) hop hc] at hw
    cases hw
  refine ⟨?_, ?_⟩
  · simpa [Function.update_of_ne (Ne.symm hid)] using hf.row
  · rw [leaseHistory_row, if_neg hid, List.append_nil]
    exact hf.history

theorem final_step {id : String} {row : InboundDelivery}
    {history : List (Leasing.Event ℕ Timestamp)} (hop : row.operation = .TicketPurchased)
    (hc : row.completedAt.isSome = true) (hst : Stepped D s e s') (hj : Journal s)
    (hf : Final s id row history) : Final s' id row history := by
  cases hst with
  | tick _ => exact ⟨hf.row, hf.history⟩
  | turn ht _ => exact ⟨hf.row, by simpa [leaseHistory_turned ht] using hf.history⟩
  | read _ _ => exact ⟨hf.row, hf.history⟩
  | @run c q received _ _ =>
    have hf' := final_execute (D.deliveryId c) q received hop hc hj hf
    exact ⟨hf'.row, hf'.history⟩
  | @server id' q received _ _ _ _ =>
    have hf' := final_execute id' q received hop hc hj hf
    exact ⟨hf'.row, hf'.history⟩

theorem final_leads {id : String} {row : InboundDelivery} (hop : row.operation = .TicketPurchased)
    (hc : row.completedAt.isSome = true) (hs : D.machine.Reached s) (hrow : s.rows id = some row)
    (hl : D.machine.Leads s s') : Final s' id row (leaseHistory id s.log) := by
  have h : D.machine.Reached s' ∧ Final s' id row (leaseHistory id s.log) := by
    refine hl.keeps (I := fun s' => D.machine.Reached s' ∧ Final s' id row (leaseHistory id s.log))
      (fun _ hstep ⟨hr, hf⟩ => ?_) ⟨hs, hrow, rfl⟩
    exact ⟨hr.tail ⟨_, trivial, hstep⟩,
      final_step hop hc (step_cases hstep) (journal_reached hr).2 hf⟩
  exact h.2

/-- In every run, whatever the order of statements, failures, crashes and replays. -/
theorem delivery_guarded {id : String} {row : InboundDelivery} (hs : D.machine.Reached s)
    (hrow : s.rows id = some row) : Guarded D s id row := by
  have hsound := (journal_reached hs).2.sound id row hrow
  refine
    { bounds := ⟨hsound.nonneg, hsound.within⟩
      granted := hsound.budget
      distinct := hsound.fenced.nodup
      started := fun before c t after heq hid => ?_
      single := fun l l' hl hn hl' hn' => hsound.fenced.unique hl hn hl' hn'
      current := hsound.fenced.held
      stale := fun q owner received hq ho => execute_stale hrow hq ho
      unleased := hsound.unleased
      exclusive := hsound.exclusive
      final := fun hop hc s' hl => ?_ }
  · obtain ⟨ht, hn⟩ := (starts_reached hs).grounded before _ after heq c t rfl
    exact ⟨hid ▸ ht, hn⟩
  · have hf := final_leads hop hc hs hrow hl
    exact ⟨hf.row, hf.history⟩

end starts

/-! ### A deployment to run -/

/-- The bytes of an ASCII text. -/
def ascii (text : String) : Buffer := text.toList.map fun ch => UInt8.ofNat ch.toNat

/-- A date-of-birth message. -/
def setterBody (date : String) : Buffer :=
  ascii ("\x7b\"pattern\":\"USER_DATE_OF_BIRTH_SET\",\"data\":\x7b\"userId\":" ++
    "\"3f2504e0-4f89-41d3-9a0c-0305e82c3301\",\"dateOfBirth\":\"" ++ date ++ "\"\x7d\x7d")

instance neZero_three : NeZero 3 := ⟨by decide⟩

/-- Copies 0 and 2 carry one date for a user, copy 1 another date for the same user. -/
def threeSetters : Deployment (Fin 3) where
  sha256 := fun b =>
    if b = ascii "loyalty_ticket_purchased" ++ [0] ++ setterBody "1990-05-17" then
      "556a93234da972544d917196bb3eb992bc3103194151ce83516c3b8a4c12cea9"
    else "b3f367edd452a2447e072f4cee1ffd4491a9c9f8fe03e0d893c1fca695caae32"
  queue := ascii "loyalty_ticket_purchased"
  content := fun c => if c = 1 then setterBody "1991-06-18" else setterBody "1990-05-17"
  pattern := fun _ => .UserDateOfBirthSet
  userId := fun _ => some ⟨"3f2504e0-4f89-41d3-9a0c-0305e82c3301", sampleUuid_canonical⟩
  options := fun _ => {}

/-- Copy `c` is handed over, admits its row, reads it, claims it and starts `work`. -/
def claims (c : Fin 3) : List (Action (Fin 3)) :=
  [.turn c .hand, .run c 0, .turn c .resume, .read c 0, .turn c .resume, .run c 0, .turn c .resume]

/-- `work` commits and returns, and the completion is recorded. -/
def completes (c : Fin 3) : List (Action (Fin 3)) :=
  [.turn c .commit, .turn c (.finish none), .run c 0]

theorem delivery_guarded_completed : ∃ s row, row.completedAt.isSome = true ∧
    Guarded threeSetters s (threeSetters.deliveryId 0) row := by
  obtain ⟨s, hs, hp⟩ := threeSetters.machine.reached_of_exec (claims 0 ++ completes 0)
    (fun s => (s.rows (threeSetters.deliveryId 0)).any (·.completedAt.isSome)) (by decide +kernel)
  obtain ⟨row, hrow, hc⟩ := (Option.any_eq_true _ _).1 hp
  exact ⟨s, row, hc, delivery_guarded hs hrow⟩

end CinemaLoyalty
