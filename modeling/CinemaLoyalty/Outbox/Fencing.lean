import CinemaLoyalty.Purchase
import CinemaLoyalty.Outbox.Publisher

/-! @svc OutboxFencing | layer:property | source:src/loyalty/outbox-publisher.service.ts

    The outbox in every run. `Sound` relates a row to the history of its leases, and each statement
    keeps it (`write_sound`), whichever publisher issued it and however late. A publication is
    started from a claim that has started none before, so a row is published at most as often as it
    was claimed; a completion is recorded for a claim whose listeners have answered. -/

namespace CinemaLoyalty
open Leasing Transition

/-! ### One row -/

namespace OutboxEvent

/-- The lease of a row. -/
def lease (row : OutboxEvent) : Option (Lease ℕ Instant) :=
  match row.leaseToken, row.leaseExpiresAt with
  | some token, some expiresAt => some ⟨token, expiresAt⟩
  | _, _ => none

/-- A row against the history of its leases. -/
structure Sound (row : OutboxEvent) (history : List (Leasing.Event ℕ Instant)) (now : Instant) :
    Prop where
  nonneg : 0 ≤ row.attempts
  within : row.attempts ≤ row.maxAttempts
  budget : row.attempts = spent history
  steady : .reset ∉ history
  fenced : Fenced row.lease history now
  token : row.leaseToken.isSome = true ↔ row.status = .PROCESSING
  expiry : row.leaseExpiresAt.isSome = true ↔ row.status = .PROCESSING
  exhausted : row.status = .FAILED → row.attempts = row.maxAttempts

variable {row row' : OutboxEvent} {history : List (Leasing.Event ℕ Instant)}
  {now received : Instant} {token : ℕ}

theorem lease_eq {l : Lease ℕ Instant} :
    row.lease = some l ↔ row.leaseToken = some l.token ∧ row.leaseExpiresAt = some l.expiresAt := by
  unfold lease
  split
  · rename_i token expiresAt ht he
    simp only [ht, he, Option.some.injEq]
    constructor
    · rintro rfl
      exact ⟨rfl, rfl⟩
    · rintro ⟨rfl, rfl⟩
      rfl
  · rename_i hno
    refine ⟨by simp, fun ⟨ht, he⟩ => absurd he (hno l.token l.expiresAt ht)⟩

theorem Sound.later (hs : row.Sound history now) {now' : Instant} (h : now ≤ now') :
    row.Sound history now' := { hs with fenced := hs.fenced.later h }

/-- Only a row in `PROCESSING` is leased. -/
theorem Sound.unleased (hs : row.Sound history now) (h : row.status ≠ .PROCESSING) :
    row.lease = none := by
  cases hl : row.lease with
  | none => rfl
  | some l =>
    have ht := (lease_eq.1 hl).1
    exact absurd (hs.token.1 (by simp [ht])) h

theorem sound_inserted (hi : row.Inserted) : row.Sound [] now where
  nonneg := hi.attempts.ge
  within := by have := hi.maxAttempts; rw [hi.attempts]; omega
  budget := by simpa using hi.attempts
  steady := by simp
  fenced := by
    have hnone : row.lease = none := by simp [lease, hi.leaseToken]
    rw [hnone]
    exact fenced_nil
  token := by simp [hi.leaseToken, hi.status]
  expiry := by simp [hi.leaseExpiresAt, hi.status]
  exhausted := by simp [hi.status]

/-- A row whose attempts are not used up goes back to `PENDING`. -/
theorem retried_exhausted (h : row.attempts ≤ row.maxAttempts) :
    row.retried = .FAILED → row.attempts = row.maxAttempts := by
  intro hf
  by_contra hne
  have hlt : ¬row.maxAttempts ≤ row.attempts := by omega
  simp [retried, hlt] at hf

theorem retried_ne : row.retried ≠ .PROCESSING := by
  unfold retried
  split <;> decide

theorem Sound.recoverExpiredClaim (hs : row.Sound history now) (hr : received ≤ now)
    (hw : row.recoverExpiredClaim received now = some row') : row'.Sound history now := by
  simp only [OutboxEvent.recoverExpiredClaim, Option.ite_none_right_eq_some,
    Option.some.injEq] at hw
  obtain ⟨⟨_, _, hover⟩, rfl⟩ := hw
  have hlapsed : ∀ l ∈ row.lease, l.expiresAt ≤ now := by
    intro l hl
    have he := (lease_eq.1 hl).2
    rw [he] at hover
    exact le_trans (by simpa using hover) hr
  exact
    { hs with
      fenced := hs.fenced.lapse hlapsed
      token := by simp [retried_ne]
      expiry := by simp [retried_ne]
      exhausted := retried_exhausted hs.within }

theorem Sound.failExhaustedPending (hs : row.Sound history now)
    (hw : row.failExhaustedPending now = some row') : row'.Sound history now := by
  simp only [OutboxEvent.failExhaustedPending, Option.ite_none_right_eq_some,
    Option.some.injEq] at hw
  obtain ⟨⟨hp, hmax⟩, rfl⟩ := hw
  have hfree : row.lease = none := hs.unleased (by simp [hp])
  exact
    { hs with
      fenced := by
        have hf := hs.fenced
        rwa [hfree] at hf
      token := by simp
      expiry := by simp
      exhausted := fun _ => le_antisymm hs.within hmax }

theorem Sound.claim {leaseMs : ℤ} (hs : row.Sound history now) (ht : token ∉ tokens history)
    (hw : row.claim leaseMs token received now = some row') :
    row'.Sound (history ++ [.granted ⟨token, now + leaseMs⟩]) now := by
  simp only [OutboxEvent.claim, Option.ite_none_right_eq_some, Option.some.injEq] at hw
  obtain ⟨⟨hp, hlt, _⟩, rfl⟩ := hw
  have hfree : row.lease = none := hs.unleased (by simp [hp])
  have hpos := hs.nonneg
  exact
    { nonneg := by simp only; omega
      within := by simp only; omega
      budget := by simp [Leasing.Event.count, hs.budget]
      steady := by simp [hs.steady]
      fenced := hs.fenced.grant (by simp [hfree]) ht
      token := by simp
      expiry := by simp
      exhausted := by simp }

theorem OwnedBy.lease (h : row.OwnedBy token now) : ∃ l, row.lease = some l ∧ l.token = token := by
  obtain ⟨_, ht, e, he, _⟩ := h
  exact ⟨⟨token, e⟩, lease_eq.2 ⟨ht, he⟩, rfl⟩

/-- The owner gives the lease back and the row leaves `PROCESSING`. -/
theorem Sound.release (hs : row.Sound history now) (ho : row.OwnedBy token now)
    (hattempts : row'.attempts = row.attempts) (hmax : row'.maxAttempts = row.maxAttempts)
    (ht : row'.leaseToken = none) (he : row'.leaseExpiresAt = none)
    (hp : row'.status ≠ .PROCESSING)
    (hf : row'.status = .FAILED → row'.attempts = row'.maxAttempts) :
    row'.Sound (history ++ [.released token]) now := by
  obtain ⟨l, hl, rfl⟩ := ho.lease
  have hfenced := hs.fenced
  rw [hl] at hfenced
  have hnone : row'.lease = none := by simp [OutboxEvent.lease, ht]
  exact
    { nonneg := hattempts ▸ hs.nonneg
      within := hattempts ▸ hmax ▸ hs.within
      budget := by simp [Leasing.Event.count, hattempts, hs.budget]
      steady := by simp [hs.steady]
      fenced := hnone ▸ hfenced.release
      token := by simp [ht, hp]
      expiry := by simp [he, hp]
      exhausted := hf }

theorem Sound.recordFailure {message : String} {delayMs : ℤ} (hs : row.Sound history now)
    (hw : row.recordFailure token message delayMs now = some row') :
    row'.Sound (history ++ [.released token]) now := by
  simp only [OutboxEvent.recordFailure, Option.ite_none_right_eq_some, Option.some.injEq] at hw
  obtain ⟨ho, rfl⟩ := hw
  exact hs.release ho rfl rfl rfl rfl retried_ne (retried_exhausted hs.within)

theorem Sound.recordSuccess (hs : row.Sound history now)
    (hw : row.recordSuccess token now = some row') :
    row'.Sound (history ++ [.released token]) now := by
  simp only [OutboxEvent.recordSuccess, Option.ite_none_right_eq_some, Option.some.injEq] at hw
  obtain ⟨ho, rfl⟩ := hw
  exact hs.release ho rfl rfl rfl rfl (by simp) (by simp)

end OutboxEvent

namespace OutboxStatement
variable {q : OutboxStatement} {row row' : OutboxEvent} {token : ℕ} {now received : Instant}

/-- Every statement leaves a sound row. -/
theorem write_sound {history : List (Leasing.Event ℕ Instant)} (hr : received ≤ now)
    (ht : token ∉ tokens history) (hs : row.Sound history now)
    (hw : q.write token received now row = some row') :
    row'.Sound (history ++ q.leaseEvents token now) now := by
  cases q with
  | recoverExpiredClaims => simpa [leaseEvents] using hs.recoverExpiredClaim hr hw
  | failExhaustedPending => simpa [leaseEvents] using hs.failExhaustedPending hw
  | claimEvents leaseMs => exact hs.claim ht hw
  | recordFailure owner message delayMs => exact hs.recordFailure hw
  | recordSuccess owner => exact hs.recordSuccess hw

/-- No statement touches what is published of a row, nor its budget. -/
theorem write_publication (hw : q.write token received now row = some row') :
    row'.publication = row.publication ∧ row'.maxAttempts = row.maxAttempts := by
  cases q <;>
    simp only [write, OutboxEvent.recoverExpiredClaim, OutboxEvent.failExhaustedPending,
      OutboxEvent.claim, OutboxEvent.recordFailure, OutboxEvent.recordSuccess,
      Option.ite_none_right_eq_some, Option.some.injEq] at hw <;>
    obtain ⟨_, rfl⟩ := hw <;> exact ⟨rfl, rfl⟩

/-- An outcome under a token that does not own the row writes nothing. -/
theorem write_stale {owner : ℕ} (hq : q.owner = some owner) (ho : ¬row.OwnedBy owner now) :
    q.write token received now row = none := by
  cases q with
  | recordFailure owner' message delayMs =>
    obtain rfl : owner' = owner := by simpa [OutboxStatement.owner] using hq
    simp [write, OutboxEvent.recordFailure, ho]
  | recordSuccess owner' =>
    obtain rfl : owner' = owner := by simpa [OutboxStatement.owner] using hq
    simp [write, OutboxEvent.recordSuccess, ho]
  | _ => cases hq

/-- Nothing writes a row that is completed or failed. -/
theorem write_final (hf : row.status = .COMPLETED ∨ row.status = .FAILED) :
    q.write token received now row = none := by
  have hpending : row.status ≠ .PENDING := by rcases hf with hf | hf <;> simp [hf]
  have hprocessing : row.status ≠ .PROCESSING := by rcases hf with hf | hf <;> simp [hf]
  cases q with
  | recoverExpiredClaims => simp [write, OutboxEvent.recoverExpiredClaim, hprocessing]
  | failExhaustedPending => simp [write, OutboxEvent.failExhaustedPending, hpending]
  | claimEvents leaseMs => simp [write, OutboxEvent.claim, hpending]
  | recordFailure owner message delayMs =>
    exact write_stale rfl fun ho => hprocessing ho.1
  | recordSuccess owner => exact write_stale rfl fun ho => hprocessing ho.1

/-- Only a success completes a row. -/
theorem write_completed (hw : q.write token received now row = some row')
    (hc : row'.status = .COMPLETED) : ∃ owner, q = .recordSuccess owner := by
  have hretried : row.retried ≠ .COMPLETED := by
    unfold OutboxEvent.retried
    split <;> decide
  cases q with
  | recordSuccess owner => exact ⟨owner, rfl⟩
  | _ =>
    simp only [write, OutboxEvent.recoverExpiredClaim, OutboxEvent.failExhaustedPending,
      OutboxEvent.claim, OutboxEvent.recordFailure, Option.ite_none_right_eq_some,
      Option.some.injEq] at hw
    obtain ⟨_, rfl⟩ := hw
    simp [hretried] at hc

end OutboxStatement

/-! ### Histories -/

/-- What is observed of the leases of a row. -/
def OutboxLog.leaseOf (id : RowId) : OutboxLog → Option (Leasing.Event ℕ Instant)
  | .lease id' e => if id' = id then some e else none
  | _ => none

/-- What has happened to the leases of a row. -/
def leasesOf (id : RowId) (log : List OutboxLog) : List (Leasing.Event ℕ Instant) :=
  log.filterMap (OutboxLog.leaseOf id)

/-- The claim a publication of a row was started from. -/
def OutboxLog.publicationOf (id : RowId) : OutboxLog → Option ℕ
  | .published token publication => if publication.eventId = id then some token else none
  | _ => none

/-- The claims from which a publication of a row was started. -/
def publicationsOf (id : RowId) (log : List OutboxLog) : List ℕ :=
  log.filterMap (OutboxLog.publicationOf id)

/-- A publication was accepted by at least one listener. -/
def Accepted (log : List OutboxLog) (publication : Publication) : Prop :=
  ∃ token listeners, 1 ≤ listeners ∧ .accepted token publication listeners ∈ log

section
variable {id id' : RowId} {log log' : List OutboxLog} {token : ℕ} {publication : Publication}

@[simp] theorem leasesOf_nil : leasesOf id [] = [] := rfl

@[simp] theorem leasesOf_append : leasesOf id (log ++ log') = leasesOf id log ++ leasesOf id log' :=
  List.filterMap_append

theorem leasesOf_lease (events : List (Leasing.Event ℕ Instant)) :
    leasesOf id (events.map (.lease id')) = if id' = id then events else [] := by
  induction events with
  | nil => simp
  | cons e events ih =>
    have hcons : leasesOf id ((e :: events).map (.lease id')) =
        leasesOf id [.lease id' e] ++ leasesOf id (events.map (.lease id')) := by
      rw [← leasesOf_append]
      rfl
    rw [hcons, ih]
    by_cases h : id' = id <;> simp [leasesOf, OutboxLog.leaseOf, h]

/-- What is observed other than leases says nothing of them. -/
theorem leasesOf_other (h : ∀ id e, .lease id e ∉ log) : leasesOf id log = [] := by
  refine List.filterMap_eq_nil_iff.2 fun e he => ?_
  cases e with
  | lease id' e' => exact absurd he (h id' e')
  | _ => rfl

@[simp] theorem publicationsOf_append :
    publicationsOf id (log ++ log') = publicationsOf id log ++ publicationsOf id log' :=
  List.filterMap_append

theorem mem_publicationsOf : token ∈ publicationsOf id log ↔
    ∃ publication, publication.eventId = id ∧ .published token publication ∈ log := by
  unfold publicationsOf
  rw [List.mem_filterMap]
  constructor
  · rintro ⟨e, he, h⟩
    cases e with
    | published token' publication =>
      simp only [OutboxLog.publicationOf, Option.ite_none_right_eq_some, Option.some.injEq] at h
      obtain ⟨hid, rfl⟩ := h
      exact ⟨publication, hid, he⟩
    | _ => cases h
  · rintro ⟨publication, hid, he⟩
    exact ⟨_, he, by simp [OutboxLog.publicationOf, hid]⟩

theorem publicationsOf_published : publicationsOf id [.published token publication] =
    if publication.eventId = id then [token] else [] := by
  by_cases h : publication.eventId = id <;> simp [publicationsOf, OutboxLog.publicationOf, h]

theorem publicationsOf_other (h : ∀ token publication, .published token publication ∉ log) :
    publicationsOf id log = [] := by
  refine List.eq_nil_iff_forall_not_mem.2 fun token ht => ?_
  obtain ⟨publication, _, he⟩ := mem_publicationsOf.1 ht
  exact h token publication he

theorem Accepted.mono (h : Accepted log publication) (events : List OutboxLog) :
    Accepted (log ++ events) publication := by
  obtain ⟨token, listeners, hpos, hin⟩ := h
  exact ⟨token, listeners, hpos, List.mem_append_left _ hin⟩

end

/-! ### All rows -/

section rows
variable {Publisher : Type}

/-- Rows and what is published of them stay. -/
def Persists (s s' : OutboxState Publisher) : Prop :=
  ∀ id row, s.rows id = some row → ∃ row', s'.rows id = some row' ∧
    row'.publication = row.publication ∧ row'.maxAttempts = row.maxAttempts

theorem Persists.of_rows {s s' : OutboxState Publisher} (h : s'.rows = s.rows) : Persists s s' :=
  fun _ row hrow => ⟨row, h ▸ hrow, rfl, rfl⟩

theorem Persists.trans {s s' s'' : OutboxState Publisher} (h : Persists s s')
    (h' : Persists s' s'') : Persists s s'' := by
  intro id row hrow
  obtain ⟨row', hrow', hpub', hmax'⟩ := h id row hrow
  obtain ⟨row'', hrow'', hpub'', hmax''⟩ := h' id row' hrow'
  exact ⟨row'', hrow'', hpub''.trans hpub', hmax''.trans hmax'⟩

/-- Every row is sound and was once inserted, and tokens are drawn in order. -/
structure OutboxJournal (s : OutboxState Publisher) : Prop where
  sound : ∀ id, ∀ row ∈ s.rows id, row.Sound (leasesOf id s.log) s.now
  absent : ∀ id, s.rows id = none → leasesOf id s.log = []
  fresh : ∀ id, ∀ t ∈ tokens (leasesOf id s.log), t < s.nextToken
  named : ∀ id, ∀ row ∈ s.rows id, row.id = id
  origin : ∀ id, ∀ row ∈ s.rows id, ∃ row₀, .inserted row₀ ∈ s.log ∧
    row₀.publication = row.publication ∧ row₀.maxAttempts = row.maxAttempts

variable {s s' : OutboxState Publisher} {id : RowId} {q : OutboxStatement} {received : Instant}

theorem persists_execute (s : OutboxState Publisher) (id : RowId) (q : OutboxStatement)
    (received : Instant) : Persists s (s.execute id q received) := by
  rcases s.execute_cases id q received with heq | ⟨row, row', hrow, hw, heq⟩ <;> rw [heq]
  · exact .of_rows rfl
  intro id' row₁ hrow₁
  by_cases hid : id' = id
  · subst hid
    obtain rfl : row = row₁ := Option.some.inj (hrow.symm.trans hrow₁)
    exact ⟨row', by simp, OutboxStatement.write_publication hw⟩
  · exact ⟨row₁, by simpa [Function.update_of_ne hid] using hrow₁, rfl, rfl⟩

/-- The only token a statement can grant is the one it drew. -/
theorem tokens_leaseEvents {token : ℕ} {now : Instant} {t : ℕ}
    (h : t ∈ tokens (q.leaseEvents token now)) : t = token := by
  cases q <;> simp_all [OutboxStatement.leaseEvents]

/-- The journal does not depend on anything but rows, leases and tokens. -/
theorem OutboxJournal.congr (hj : OutboxJournal s) (hnow : s.now ≤ s'.now)
    (hrows : s'.rows = s.rows) {events : List OutboxLog} (hlog : s'.log = s.log ++ events)
    (hno : ∀ id e, .lease id e ∉ events) (htok : s'.nextToken = s.nextToken) :
    OutboxJournal s' := by
  have hleases : ∀ id, leasesOf id s'.log = leasesOf id s.log := by
    intro id
    rw [hlog, leasesOf_append, leasesOf_other hno, List.append_nil]
  refine ⟨fun id row hrow => ?_, fun id hnone => ?_, fun id t ht => ?_, fun id row hrow => ?_,
    fun id row hrow => ?_⟩
  · rw [hleases]
    rw [hrows] at hrow
    exact (hj.sound id row hrow).later hnow
  · rw [hleases]
    exact hj.absent id (hrows ▸ hnone)
  · rw [hleases] at ht
    exact htok ▸ hj.fresh id t ht
  · exact hj.named id row (hrows ▸ hrow)
  · obtain ⟨row₀, hin, hpub⟩ := hj.origin id row (hrows ▸ hrow)
    exact ⟨row₀, hlog ▸ List.mem_append_left _ hin, hpub⟩

theorem outboxJournal_execute (hr : received ≤ s.now) (hj : OutboxJournal s) :
    OutboxJournal (s.execute id q received) := by
  rcases s.execute_cases id q received with heq | ⟨row, row', hrow, hw, heq⟩ <;> rw [heq]
  · exact hj
  have hnew : s.nextToken ∉ tokens (leasesOf id s.log) :=
    fun h => absurd (hj.fresh id _ h) (lt_irrefl _)
  have hsound := OutboxStatement.write_sound hr hnew (hj.sound id row hrow) hw
  have hpub := OutboxStatement.write_publication hw
  have hother : ∀ {id' : RowId} {row₁ : OutboxEvent}, id' ≠ id →
      Function.update s.rows id (some row') id' = some row₁ → s.rows id' = some row₁ := by
    intro id' row₁ hid h
    simpa [Function.update_of_ne hid] using h
  refine ⟨fun id' row₁ hrow₁ => ?_, fun id' hnone => ?_, fun id' t ht => ?_,
    fun id' row₁ hrow₁ => ?_, fun id' row₁ hrow₁ => ?_⟩
  · simp only [leasesOf_append, leasesOf_lease]
    by_cases hid : id' = id
    · subst hid
      obtain rfl : row' = row₁ := by simpa using hrow₁
      simpa using hsound
    · rw [if_neg (Ne.symm hid), List.append_nil]
      exact hj.sound id' row₁ (hother hid hrow₁)
  · have hid : id' ≠ id := by
      rintro rfl
      simp at hnone
    simp only [leasesOf_append, leasesOf_lease, if_neg (Ne.symm hid), List.append_nil]
    exact hj.absent id' (by simpa [Function.update_of_ne hid] using hnone)
  · simp only [leasesOf_append, leasesOf_lease, tokens_append, List.mem_append] at ht
    rcases ht with ht | ht
    · exact (hj.fresh id' t ht).trans (Nat.lt_succ_self _)
    · split at ht
      · rw [tokens_leaseEvents ht]
        exact Nat.lt_succ_self _
      · cases ht
  · by_cases hid : id' = id
    · subst hid
      obtain rfl : row' = row₁ := by simpa using hrow₁
      have hname : row'.id = row.id := congrArg Publication.eventId hpub.1
      exact hname.trans (hj.named id' row hrow)
    · exact hj.named id' row₁ (hother hid hrow₁)
  · by_cases hid : id' = id
    · subst hid
      obtain rfl : row' = row₁ := by simpa using hrow₁
      obtain ⟨row₀, hin, hpub₀, hmax₀⟩ := hj.origin id' row hrow
      exact ⟨row₀, List.mem_append_left _ hin, hpub₀.trans hpub.1.symm, hmax₀.trans hpub.2.symm⟩
    · obtain ⟨row₀, hin, hpub₀⟩ := hj.origin id' row₁ (hother hid hrow₁)
      exact ⟨row₀, List.mem_append_left _ hin, hpub₀⟩

theorem outboxJournal_executeAll (ids : List RowId) (hr : received ≤ s.now) (hj : OutboxJournal s) :
    OutboxJournal (s.executeAll ids q received) :=
  OutboxState.executeAll_keeps outboxJournal_execute ids hr hj

/-- A row of its writers. -/
theorem OutboxJournal.insert {row : OutboxEvent} (hj : OutboxJournal s) (hi : row.Inserted)
    (hn : s.rows row.id = none) :
    OutboxJournal { s with
      rows := Function.update s.rows row.id (some row)
      log := s.log ++ [.inserted row] } := by
  have hleases : ∀ id, leasesOf id (s.log ++ [.inserted row]) = leasesOf id s.log := by
    intro id
    have hno : leasesOf id [.inserted row] = [] := leasesOf_other (by simp)
    rw [leasesOf_append, hno, List.append_nil]
  have hcases : ∀ {id : RowId} {row₁ : OutboxEvent},
      Function.update s.rows row.id (some row) id = some row₁ →
        id = row.id ∧ row₁ = row ∨ s.rows id = some row₁ := by
    intro id row₁ h
    by_cases hid : id = row.id
    · subst hid
      exact .inl ⟨rfl, by simpa using h.symm⟩
    · exact .inr (by simpa [Function.update_of_ne hid] using h)
  refine ⟨fun id row₁ hrow₁ => ?_, fun id hnone => ?_, fun id t ht => ?_, fun id row₁ hrow₁ => ?_,
    fun id row₁ hrow₁ => ?_⟩
  · rw [hleases]
    rcases hcases hrow₁ with ⟨rfl, rfl⟩ | hold
    · rw [hj.absent _ hn]
      exact OutboxEvent.sound_inserted hi
    · exact hj.sound id row₁ hold
  · rw [hleases]
    have hid : id ≠ row.id := by
      rintro rfl
      simp at hnone
    exact hj.absent id (by simpa [Function.update_of_ne hid] using hnone)
  · rw [hleases] at ht
    exact hj.fresh id t ht
  · rcases hcases hrow₁ with ⟨rfl, rfl⟩ | hold
    · rfl
    · exact hj.named id row₁ hold
  · rcases hcases hrow₁ with ⟨rfl, rfl⟩ | hold
    · exact ⟨row₁, by simp, rfl, rfl⟩
    · obtain ⟨row₀, hin, hpub⟩ := hj.origin id row₁ hold
      exact ⟨row₀, List.mem_append_left _ hin, hpub⟩

variable [DecidableEq Publisher]

theorem persists_step (hs : OutboxStepped s s') : Persists s s' := by
  have hall : ∀ {ids : List RowId} {q : OutboxStatement} {received : Instant}, received ≤ s.now →
      Persists s (s.executeAll ids q received) := fun {ids q received} hr =>
    OutboxState.executeAll_keeps (I := Persists s)
      (fun {s₁ id} _ h => h.trans (persists_execute s₁ id q received)) ids hr (.of_rows rfl)
  cases hs with
  | tick _ => exact .of_rows rfl
  | @insert row _ hn =>
    intro id row₁ hrow₁
    have hid : id ≠ row.id := by
      rintro rfl
      simp [hn] at hrow₁
    exact ⟨row₁, by simpa [Function.update_of_ne hid] using hrow₁, rfl, rfl⟩
  | move _ _ => exact .of_rows rfl
  | run p phase _ hr => exact (hall hr).trans (.of_rows rfl)
  | stray _ hr => exact hall hr
  | publish _ => exact .of_rows rfl
  | settle _ _ => exact .of_rows rfl
  | record _ => exact (persists_execute _ _ _ _).trans (.of_rows rfl)
  | drop _ => exact .of_rows rfl

theorem outboxJournal_step (hs : OutboxStepped s s') (hj : OutboxJournal s) : OutboxJournal s' := by
  cases hs with
  | tick h => exact hj.congr h rfl (List.append_nil _).symm (by simp) rfl
  | insert hi hn => exact hj.insert hi hn
  | move _ _ => exact hj.congr le_rfl rfl (List.append_nil _).symm (by simp) rfl
  | run p phase _ hr =>
    exact (outboxJournal_executeAll _ hr hj).congr le_rfl rfl (List.append_nil _).symm (by simp) rfl
  | stray _ hr => exact outboxJournal_executeAll _ hr hj
  | publish _ => exact hj.congr le_rfl rfl rfl (by simp) rfl
  | @settle _ _ emission _ _ =>
    refine hj.congr le_rfl rfl rfl (fun id e => ?_) rfl
    cases emission <;> simp [Emission.answer]
  | record _ =>
    exact (outboxJournal_execute le_rfl hj).congr le_rfl rfl rfl (by simp) rfl
  | drop _ => exact hj.congr le_rfl rfl rfl (by simp) rfl

end rows

/-! ### Claims and publications -/

/-- The row a call of `processEvent` works on. -/
def Task.event : Task → Option OutboxEvent
  | .claimed event | .publishing event | .recording event _ => some event
  | .none | .done => Option.none

section claims
variable {Publisher : Type} {s s' : OutboxState Publisher} {id : RowId} {q : OutboxStatement}
  {received : Instant}

/-- A claim was granted for its row, whose publication has stayed the same. -/
def OutboxState.Granted (s : OutboxState Publisher) (token : ℕ) (event : OutboxEvent) : Prop :=
  token ∈ tokens (leasesOf event.id s.log) ∧
    ∃ row, s.rows event.id = some row ∧ row.publication = event.publication

/-- Each claim starts at most one publication, of the row it was granted for. -/
structure OutboxClaims (s : OutboxState Publisher) : Prop where
  granted : ∀ t event, (s.tasks t).event = some event → s.Granted t event
  unstarted : ∀ t event, s.tasks t = .claimed event → ∀ p, .published t p ∉ s.log
  started : ∀ t p, .published t p ∈ s.log → t ∈ tokens (leasesOf p.eventId s.log)
  once : ∀ id, (publicationsOf id s.log).Nodup

theorem mem_tokens_append {log : List OutboxLog} (events : List OutboxLog) {t : ℕ}
    (h : t ∈ tokens (leasesOf id log)) : t ∈ tokens (leasesOf id (log ++ events)) := by
  simp only [leasesOf_append, tokens_append, List.mem_append]
  exact .inl h

theorem OutboxState.Granted.mono {token : ℕ} {event : OutboxEvent} (h : s.Granted token event)
    (hp : Persists s s') {events : List OutboxLog} (hlog : s'.log = s.log ++ events) :
    s'.Granted token event := by
  obtain ⟨ht, row, hrow, hpub⟩ := h
  obtain ⟨row', hrow', hpub', _⟩ := hp _ row hrow
  exact ⟨hlog ▸ mem_tokens_append events ht, row', hrow', hpub'.trans hpub⟩

/-- Steps that start no publication. -/
theorem OutboxClaims.extend (hc : OutboxClaims s) (hp : Persists s s') {events : List OutboxLog}
    (hlog : s'.log = s.log ++ events) (hno : ∀ t p, .published t p ∉ events)
    (ht : ∀ t event, (s'.tasks t).event = some event →
      (s.tasks t).event = some event ∨ s'.Granted t event)
    (hcl : ∀ t event, s'.tasks t = .claimed event →
      s.tasks t = .claimed event ∨ ∀ p, .published t p ∉ s.log) : OutboxClaims s' := by
  have hin : ∀ t p, .published t p ∈ s'.log → .published t p ∈ s.log := by
    intro t p h
    rw [hlog] at h
    exact (List.mem_append.1 h).resolve_right (hno t p)
  refine ⟨fun t event h => ?_, fun t event h p hpub => ?_, fun t p h => ?_, fun id => ?_⟩
  · rcases ht t event h with hold | hnew
    · exact (hc.granted t event hold).mono hp hlog
    · exact hnew
  · rcases hcl t event h with hold | hnew
    · exact hc.unstarted t event hold p (hin t p hpub)
    · exact hnew p (hin t p hpub)
  · exact hlog ▸ mem_tokens_append events (hc.started t p (hin t p h))
  · rw [hlog, publicationsOf_append, publicationsOf_other hno, List.append_nil]
    exact hc.once id

theorem outboxClaims_execute (hj : OutboxJournal s) (hc : OutboxClaims s) :
    OutboxClaims (s.execute id q received) := by
  have hp := persists_execute s id q received
  rcases s.execute_cases id q received with heq | ⟨row, row', hrow, hw, heq⟩
  · rw [heq]
    exact hc
  rw [heq] at hp ⊢
  cases q with
  | claimEvents leaseMs =>
    have hid : row'.id = id := by
      have hpub := (OutboxStatement.write_publication hw).1
      exact (congrArg Publication.eventId hpub).trans (hj.named id row hrow)
    refine hc.extend hp rfl (by simp) (fun t event h => ?_) (fun t event h => ?_)
    · by_cases ht : t = s.nextToken
      · subst ht
        obtain rfl : row' = event := by simpa [Task.event] using h
        refine .inr ⟨?_, row', by simp [hid], rfl⟩
        rw [hid, leasesOf_append, leasesOf_lease, if_pos rfl, tokens_append]
        exact List.mem_append_right _ (by simp [OutboxStatement.leaseEvents])
      · exact .inl (by simpa [Function.update_of_ne ht] using h)
    · by_cases ht : t = s.nextToken
      · -- a token that has only now been drawn
        subst ht
        exact .inr fun p hin => absurd (hj.fresh _ _ (hc.started _ p hin)) (lt_irrefl _)
      · exact .inl (by simpa [Function.update_of_ne ht] using h)
  | _ => exact hc.extend hp rfl (by simp) (fun _ _ h => .inl h) (fun _ _ h => .inl h)

theorem outboxClaims_executeAll (ids : List RowId) (hr : received ≤ s.now) (hj : OutboxJournal s)
    (hc : OutboxClaims s) : OutboxClaims (s.executeAll ids q received) := by
  have h := OutboxState.executeAll_keeps (I := fun s => OutboxJournal s ∧ OutboxClaims s)
    (q := q) (fun hr ⟨hj, hc⟩ => ⟨outboxJournal_execute hr hj, outboxClaims_execute hj hc⟩) ids hr
    ⟨hj, hc⟩
  exact h.2

/-- A claim that moves on within its publication, or is over. -/
theorem OutboxClaims.advance {token : ℕ} {task : Task} {events : List OutboxLog}
    (hc : OutboxClaims s) (he : ∀ event, task.event = some event → (s.tasks token).event = some event)
    (hcl : ∀ event, task ≠ .claimed event) (hno : ∀ t p, .published t p ∉ events) :
    OutboxClaims (s.advance token task events) := by
  refine hc.extend (.of_rows rfl) rfl hno (fun t event h => .inl ?_) (fun t event h => .inl ?_)
  · by_cases ht : t = token
    · subst ht
      exact he event (by simpa [OutboxState.advance] using h)
    · simpa [OutboxState.advance, Function.update_of_ne ht] using h
  · by_cases ht : t = token
    · subst ht
      exact absurd (by simpa [OutboxState.advance] using h) (hcl event)
    · simpa [OutboxState.advance, Function.update_of_ne ht] using h

/-- A claim that has started no publication starts one. -/
theorem OutboxClaims.publish {token : ℕ} {event : OutboxEvent} (hc : OutboxClaims s)
    (ht : s.tasks token = .claimed event) :
    OutboxClaims (s.advance token (.publishing event) [.published token event.publication]) := by
  have hev : (s.tasks token).event = some event := by rw [ht]; rfl
  have hgr := hc.granted token event hev
  have hnew := hc.unstarted token event ht
  have hpersists : Persists s
      (s.advance token (.publishing event) [.published token event.publication]) := .of_rows rfl
  refine ⟨fun t event' h => ?_, fun t event' h p hin => ?_, fun t p hin => ?_, fun id => ?_⟩
  · by_cases htt : t = token
    · subst htt
      obtain rfl : event = event' := by simpa [OutboxState.advance, Task.event] using h
      exact hgr.mono hpersists rfl
    · have hold : (s.tasks t).event = some event' := by
        simpa [OutboxState.advance, Function.update_of_ne htt] using h
      exact (hc.granted t event' hold).mono hpersists rfl
  · have htt : t ≠ token := by
      rintro rfl
      simp [OutboxState.advance] at h
    rcases List.mem_append.1 hin with hin | hin
    · exact hc.unstarted t event'
        (by simpa [OutboxState.advance, Function.update_of_ne htt] using h) p hin
    · simp [htt] at hin
  · refine mem_tokens_append _ ?_
    rcases List.mem_append.1 hin with hin | hin
    · exact hc.started t p hin
    · obtain ⟨rfl, rfl⟩ : t = token ∧ p = event.publication := by simpa using hin
      exact hgr.1
  · have hout : token ∉ publicationsOf id s.log := by
      intro h
      obtain ⟨p, _, hin⟩ := mem_publicationsOf.1 h
      exact hnew p hin
    have heq : (s.advance token (.publishing event) [.published token event.publication]).log =
        s.log ++ [.published token event.publication] := rfl
    rw [heq, publicationsOf_append, publicationsOf_published]
    split
    · refine List.nodup_append.2 ⟨hc.once id, List.nodup_singleton _, fun t h t' h' => ?_⟩
      obtain rfl : t' = token := by simpa using h'
      rintro rfl
      exact hout h
    · rw [List.append_nil]
      exact hc.once id

variable [DecidableEq Publisher]

theorem outboxClaims_step (hs : OutboxStepped s s') (hj : OutboxJournal s) (hc : OutboxClaims s) :
    OutboxClaims s' := by
  have hkeep : ∀ {s₁ s₂ : OutboxState Publisher}, OutboxClaims s₁ → s₂.rows = s₁.rows →
      s₂.log = s₁.log → s₂.tasks = s₁.tasks → OutboxClaims s₂ := by
    intro s₁ s₂ hc hrows hlog htasks
    refine hc.extend (.of_rows hrows) (hlog.trans (List.append_nil _).symm) (by simp)
      (fun t event h => .inl (htasks ▸ h)) (fun t event h => .inl (htasks ▸ h))
  cases hs with
  | tick _ => exact hkeep hc rfl rfl rfl
  | insert hi hn =>
    exact hc.extend (persists_step (.insert hi hn)) rfl (by simp) (fun _ _ h => .inl h)
      (fun _ _ h => .inl h)
  | move _ _ => exact hkeep hc rfl rfl rfl
  | run p phase _ hr => exact hkeep (outboxClaims_executeAll _ hr hj hc) rfl rfl rfl
  | stray _ hr => exact outboxClaims_executeAll _ hr hj hc
  | publish ht => exact hc.publish ht
  | @settle token event emission config ht =>
    refine hc.advance (fun event' h => ?_) (by simp) (fun t p => ?_)
    · rw [ht]
      exact h
    · cases emission <;> simp [Emission.answer]
  | record _ =>
    exact (outboxClaims_execute hj hc).advance (by simp [Task.event]) (by simp) (by simp)
  | drop _ => exact hc.advance (by simp [Task.event]) (by simp) (by simp)

end claims

/-! ### Acceptance -/

section evidence
variable {Publisher : Type} {s s' : OutboxState Publisher} {id : RowId} {q : OutboxStatement}
  {received : Instant}

/-- Only what was published is accepted, and only what was accepted is completed. -/
structure OutboxEvidence (s : OutboxState Publisher) : Prop where
  publishing : ∀ t event, s.tasks t = .publishing event → .published t event.publication ∈ s.log
  answered : ∀ t p n, .accepted t p n ∈ s.log → .published t p ∈ s.log
  recording : ∀ t event, s.tasks t = .recording event none → Accepted s.log event.publication
  completed : ∀ id, ∀ row ∈ s.rows id, row.status = .COMPLETED → Accepted s.log row.publication

theorem OutboxEvidence.extend (he : OutboxEvidence s) {events : List OutboxLog}
    (hlog : s'.log = s.log ++ events)
    (hans : ∀ t p n, .accepted t p n ∈ events → .published t p ∈ s.log)
    (hpub : ∀ t event, s'.tasks t = .publishing event →
      s.tasks t = .publishing event ∨ .published t event.publication ∈ events)
    (hrec : ∀ t event, s'.tasks t = .recording event none →
      s.tasks t = .recording event none ∨ Accepted events event.publication)
    (hrow : ∀ id, ∀ row ∈ s'.rows id, row.status = .COMPLETED →
      row ∈ s.rows id ∨ Accepted s.log row.publication) : OutboxEvidence s' := by
  refine ⟨fun t event h => ?_, fun t p n h => ?_, fun t event h => ?_, fun id row hr hc => ?_⟩ <;>
    rw [hlog] at *
  · rcases hpub t event h with hold | hnew
    · exact List.mem_append_left _ (he.publishing t event hold)
    · exact List.mem_append_right _ hnew
  · rcases List.mem_append.1 h with hold | hnew
    · exact List.mem_append_left _ (he.answered t p n hold)
    · exact List.mem_append_left _ (hans t p n hnew)
  · rcases hrec t event h with hold | ⟨token, listeners, hpos, hin⟩
    · exact (he.recording t event hold).mono events
    · exact ⟨token, listeners, hpos, List.mem_append_right _ hin⟩
  · rcases hrow id row hr hc with hold | hnew
    · exact (he.completed id row hold hc).mono events
    · exact hnew.mono events

/-- A success completes a row whose publication was accepted. -/
theorem outboxEvidence_execute
    (hq : ∀ owner, q = .recordSuccess owner → ∀ row ∈ s.rows id, Accepted s.log row.publication)
    (he : OutboxEvidence s) : OutboxEvidence (s.execute id q received) := by
  rcases s.execute_cases id q received with heq | ⟨row, row', hrow, hw, heq⟩ <;> rw [heq]
  · exact he
  refine he.extend rfl (by simp) (fun t event h => ?_) (fun t event h => ?_)
    (fun id' row₁ hrow₁ hc => ?_)
  · cases q with
    | claimEvents leaseMs =>
      by_cases ht : t = s.nextToken
      · subst ht
        simp at h
      · exact .inl (by simpa [Function.update_of_ne ht] using h)
    | _ => exact .inl h
  · cases q with
    | claimEvents leaseMs =>
      by_cases ht : t = s.nextToken
      · subst ht
        simp at h
      · exact .inl (by simpa [Function.update_of_ne ht] using h)
    | _ => exact .inl h
  · by_cases hid : id' = id
    · subst hid
      obtain rfl : row' = row₁ := by simpa using hrow₁
      obtain ⟨owner, rfl⟩ := OutboxStatement.write_completed hw hc
      rw [(OutboxStatement.write_publication hw).1]
      exact .inr (hq owner rfl row hrow)
    · exact .inl (by simpa [Function.update_of_ne hid] using hrow₁)

theorem outboxEvidence_executeAll (ids : List RowId) (hq : q.shared = true) (hr : received ≤ s.now)
    (he : OutboxEvidence s) : OutboxEvidence (s.executeAll ids q received) := by
  refine OutboxState.executeAll_keeps (fun _ he => outboxEvidence_execute ?_ he) ids hr he
  rintro owner rfl
  cases hq

/-- A claim that moves on with the evidence for it. -/
theorem OutboxEvidence.advance {token : ℕ} {task : Task} {events : List OutboxLog}
    (he : OutboxEvidence s) (hans : ∀ t p n, .accepted t p n ∈ events → .published t p ∈ s.log)
    (hpub : ∀ event, task = .publishing event → .published token event.publication ∈ events)
    (hrec : ∀ event, task = .recording event none → Accepted events event.publication) :
    OutboxEvidence (s.advance token task events) := by
  refine he.extend rfl hans (fun t event h => ?_) (fun t event h => ?_) (fun _ _ h _ => .inl h)
  · by_cases ht : t = token
    · subst ht
      exact .inr (hpub event (by simpa [OutboxState.advance] using h))
    · exact .inl (by simpa [OutboxState.advance, Function.update_of_ne ht] using h)
  · by_cases ht : t = token
    · subst ht
      exact .inr (hrec event (by simpa [OutboxState.advance] using h))
    · exact .inl (by simpa [OutboxState.advance, Function.update_of_ne ht] using h)

/-- A call that has no failure to record was answered by a listener. -/
theorem Emission.accepted {config : OutboxConfig} {emission : Emission} {token : ℕ}
    {publication : Publication} (h : emission.failure config = none) :
    Accepted (emission.answer token publication) publication := by
  cases emission with
  | resolved listeners =>
    cases listeners with
    | zero => cases h
    | succ n => exact ⟨token, n + 1, by omega, by simp [Emission.answer]⟩
  | rejected message => cases h
  | timedOut => cases h

variable [DecidableEq Publisher]

theorem outboxEvidence_step (hs : OutboxStepped s s') (hc : OutboxClaims s)
    (he : OutboxEvidence s) : OutboxEvidence s' := by
  have hkeep : ∀ {s₁ s₂ : OutboxState Publisher}, OutboxEvidence s₁ → s₂.rows = s₁.rows →
      s₂.log = s₁.log → s₂.tasks = s₁.tasks → OutboxEvidence s₂ := by
    intro s₁ s₂ he hrows hlog htasks
    exact he.extend (hlog.trans (List.append_nil _).symm) (by simp)
      (fun t event h => .inl (htasks ▸ h)) (fun t event h => .inl (htasks ▸ h))
      (fun id row h _ => .inl (hrows ▸ h))
  cases hs with
  | tick _ => exact hkeep he rfl rfl rfl
  | @insert row hi hn =>
    refine he.extend rfl (by simp) (fun _ _ h => .inl h) (fun _ _ h => .inl h)
      (fun id row₁ hrow₁ hstatus => .inl ?_)
    by_cases hid : id = row.id
    · subst hid
      obtain rfl : row = row₁ := by simpa using hrow₁
      simp [hi.status] at hstatus
    · simpa [Function.update_of_ne hid] using hrow₁
  | move _ _ => exact hkeep he rfl rfl rfl
  | run p phase hq hr => exact hkeep (outboxEvidence_executeAll _ hq hr he) rfl rfl rfl
  | stray hq hr => exact outboxEvidence_executeAll _ hq hr he
  | publish ht => exact he.advance (by simp) (by simp) (by simp)
  | @settle token event emission config ht =>
    have hpub := he.publishing token event ht
    refine he.advance (fun t p n h => ?_) (by simp) (fun event' h => ?_)
    · cases emission with
      | resolved listeners =>
        obtain ⟨rfl, rfl, _⟩ : t = token ∧ p = event.publication ∧ n = listeners := by
          simpa [Emission.answer] using h
        exact hpub
      | _ => simp [Emission.answer] at h
    · obtain ⟨rfl, hnone⟩ : event = event' ∧ emission.failure config = none := by simpa using h
      exact Emission.accepted hnone
  | @record token event failure ht =>
    have hexec : OutboxEvidence
        (s.execute event.id (outcomeStatement token event failure) s.now) := by
      refine outboxEvidence_execute (fun owner hq row hrow => ?_) he
      cases failure with
      | none =>
        -- the row is the one the claim was granted for
        obtain ⟨_, row₁, hrow₁, hpub⟩ := hc.granted token event (by rw [ht]; rfl)
        obtain rfl : row₁ = row := Option.some.inj (hrow₁.symm.trans hrow)
        exact hpub ▸ he.recording token event ht
      | some message => cases hq
    exact hexec.advance (by simp) (by simp) (by simp)
  | drop _ => exact he.advance (by simp) (by simp) (by simp)

end evidence

/-! ### What is promised of a row -/

/-- A row as the writers of the outbox make it can be inserted. -/
theorem tierUpgraded_inserted (userId : UuidText) (oldTier newTier : Tier) (now : Instant)
    (seq : ℕ) : OutboxEvent.Inserted { tierUpgraded userId oldTier newTier now with seq } :=
  ⟨rfl, rfl, by simp [tierUpgraded], rfl, rfl⟩

section
variable {Publisher : Type} [DecidableEq Publisher] {config : Publisher → OutboxConfig}
  {s s' : OutboxState Publisher} {id : RowId} {row : OutboxEvent}

/-- What every step keeps. -/
structure OutboxInvariant (s : OutboxState Publisher) : Prop where
  journal : OutboxJournal s
  claims : OutboxClaims s
  evidence : OutboxEvidence s

theorem outboxInvariant_first : OutboxInvariant (outboxMachine config).first where
  journal := by constructor <;> simp [outboxMachine]
  claims := by constructor <;> simp [outboxMachine, Task.event, publicationsOf]
  evidence := by constructor <;> simp [outboxMachine]

theorem outbox_reached (hs : (outboxMachine config).Reached s) : OutboxInvariant s := by
  refine hs.invariant (I := OutboxInvariant) outboxInvariant_first fun hstep h => ?_
  have hst := outboxStep_cases hstep
  exact ⟨outboxJournal_step hst h.journal, outboxClaims_step hst h.journal h.claims,
    outboxEvidence_step hst h.claims h.evidence⟩

theorem persists_leads (hl : (outboxMachine config).Leads s s') : Persists s s' :=
  hl.keeps (I := Persists s)
    (fun _ hstep h => h.trans (persists_step (outboxStep_cases hstep))) (.of_rows rfl)

omit [DecidableEq Publisher] in
/-- An outcome under a token that no longer owns the row changes nothing. -/
theorem outbox_stale {q : OutboxStatement} {owner : ℕ} {received : Instant}
    (hrow : s.rows id = some row) (hq : q.owner = some owner)
    (ho : row.leaseToken ≠ some owner ∨ ∀ e ∈ row.leaseExpiresAt, e ≤ s.now) :
    s.execute id q received = s := by
  have hnot : ¬row.OwnedBy owner s.now := by
    rintro ⟨_, ht, e, he, hlt⟩
    rcases ho with hne | hover
    · exact hne ht
    · exact absurd hlt (not_lt.2 (hover e he))
  rcases s.execute_cases id q received with heq | ⟨row₁, row', hrow₁, hw, _⟩
  · exact heq
  · obtain rfl : row = row₁ := Option.some.inj (hrow.symm.trans hrow₁)
    rw [OutboxStatement.write_stale hq hnot] at hw
    cases hw

omit [DecidableEq Publisher] in
theorem outboxFinal_execute {q : OutboxStatement} {received : Instant}
    (hf : row.status = .COMPLETED ∨ row.status = .FAILED) (id' : RowId)
    (hrow : s.rows id = some row) : (s.execute id' q received).rows id = some row := by
  rcases s.execute_cases id' q received with heq | ⟨row₁, row', hrow₁, hw, heq⟩ <;> rw [heq]
  · exact hrow
  have hid : id ≠ id' := by
    rintro rfl
    obtain rfl : row = row₁ := Option.some.inj (hrow.symm.trans hrow₁)
    rw [OutboxStatement.write_final hf] at hw
    cases hw
  simpa [Function.update_of_ne hid] using hrow

/-- A completed or failed row is left alone by every step. -/
theorem outboxFinal_step (hf : row.status = .COMPLETED ∨ row.status = .FAILED)
    (hs : OutboxStepped s s') (hrow : s.rows id = some row) : s'.rows id = some row := by
  have hall : ∀ {ids : List RowId} {q : OutboxStatement} {received : Instant}, received ≤ s.now →
      (s.executeAll ids q received).rows id = some row := fun {ids q received} hr =>
    OutboxState.executeAll_keeps (I := fun s => s.rows id = some row)
      (fun {_ id'} _ h => outboxFinal_execute hf id' h) ids hr hrow
  cases hs with
  | @insert row₁ _ hn =>
    have hid : id ≠ row₁.id := by
      rintro rfl
      simp [hn] at hrow
    simpa [Function.update_of_ne hid] using hrow
  | run _ _ _ hr => exact hall hr
  | stray _ hr => exact hall hr
  | record _ => exact outboxFinal_execute hf _ hrow
  | _ => exact hrow

theorem outboxFinal_leads (hf : row.status = .COMPLETED ∨ row.status = .FAILED)
    (hrow : s.rows id = some row) (hl : (outboxMachine config).Leads s s') :
    s'.rows id = some row :=
  hl.keeps (I := fun s => s.rows id = some row)
    (fun _ hstep h => outboxFinal_step hf (outboxStep_cases hstep) h) hrow

/-- A reachable row of the outbox. -/
structure OutboxGuarded (config : Publisher → OutboxConfig) (s : OutboxState Publisher)
    (id : RowId) (row : OutboxEvent) : Prop where
  bounds : 0 ≤ row.attempts ∧ row.attempts ≤ row.maxAttempts
  granted : row.attempts = (tokens (leasesOf id s.log)).length
  published : (publicationsOf id s.log).length ≤ row.attempts
  leased : (row.leaseToken.isSome = true ↔ row.status = .PROCESSING) ∧
    (row.leaseExpiresAt.isSome = true ↔ row.status = .PROCESSING)
  single : ∀ l l', Outstanding (leasesOf id s.log) l → s.now < l.expiresAt →
    Outstanding (leasesOf id s.log) l' → s.now < l'.expiresAt → l = l'
  current : ∀ l ∈ row.lease, Outstanding (leasesOf id s.log) l
  stale : ∀ (q : OutboxStatement) (owner : ℕ) (received : Instant), q.owner = some owner →
    (row.leaseToken ≠ some owner ∨ ∀ e ∈ row.leaseExpiresAt, e ≤ s.now) →
    s.execute id q received = s
  final : row.status = .COMPLETED ∨ row.status = .FAILED →
    ∀ s', (outboxMachine config).Leads s s' → s'.rows id = some row
  inserted : ∃ row₀, .inserted row₀ ∈ s.log ∧ row₀.publication = row.publication ∧
    row₀.maxAttempts = row.maxAttempts
  unchanged : ∀ s', (outboxMachine config).Leads s s' → ∃ row', s'.rows id = some row' ∧
    row'.publication = row.publication ∧ row'.maxAttempts = row.maxAttempts
  completed : row.status = .COMPLETED → ∃ token listeners, 1 ≤ listeners ∧
    .published token row.publication ∈ s.log ∧ .accepted token row.publication listeners ∈ s.log
  failed : row.status = .FAILED → row.attempts = row.maxAttempts

/-- In every run, whatever the order of statements, failures and crashes. -/
theorem outbox_guarded (hs : (outboxMachine config).Reached s) (hrow : s.rows id = some row) :
    OutboxGuarded config s id row := by
  obtain ⟨hj, hc, he⟩ := outbox_reached hs
  have hsound := hj.sound id row hrow
  have hcount : row.attempts = (tokens (leasesOf id s.log)).length := by
    rw [tokens_length_of_no_reset hsound.steady]
    exact hsound.budget
  have hsub : publicationsOf id s.log ⊆ tokens (leasesOf id s.log) := by
    intro t ht
    obtain ⟨p, rfl, hin⟩ := mem_publicationsOf.1 ht
    exact hc.started t p hin
  have hle : (publicationsOf id s.log).length ≤ (tokens (leasesOf id s.log)).length :=
    (List.subperm_of_subset (hc.once id) hsub).length_le
  exact
    { bounds := ⟨hsound.nonneg, hsound.within⟩
      granted := hcount
      published := by omega
      leased := ⟨hsound.token, hsound.expiry⟩
      single := fun l l' hl hn hl' hn' => hsound.fenced.unique hl hn hl' hn'
      current := hsound.fenced.held
      stale := fun q owner received hq ho => outbox_stale hrow hq ho
      final := fun hf s' hl => outboxFinal_leads hf hrow hl
      inserted := hj.origin id row hrow
      unchanged := fun s' hl => persists_leads hl id row hrow
      completed := fun hstatus => by
        obtain ⟨token, listeners, hpos, hin⟩ := he.completed id row hrow hstatus
        exact ⟨token, listeners, hpos, he.answered _ _ _ hin, hin⟩
      failed := hsound.exhausted }

end

/-! ### An outbox to run -/

/-- A first row of a profile. -/
def firstUpgrade : OutboxEvent where
  payload :=
    { userId := "3f2504e0-4f89-41d3-9a0c-0305e82c3301", oldTier := .BRONZE, newTier := .SILVER }
  aggregateId := ⟨"3f2504e0-4f89-41d3-9a0c-0305e82c3301", sampleUuid_canonical⟩
  nextAttemptAt := 1000
  createdAt := 1000

/-- A publisher calls the listeners and then hangs until its lease is over. Another recovers the row,
    claims it again and records its success; only then the first one tries to record its own. -/
def takesOver : List (OutboxAction Bool) :=
  [.tick 1000, .insert firstUpgrade, .begin true, .run true [] 1000, .run true [] 1000,
    .run true [firstUpgrade.id] 1000, .publish 0,
    .tick 40000, .begin false, .run false [firstUpgrade.id] 40000, .run false [] 40000,
    .run false [] 40000,
    .tick 46000, .begin false, .run false [] 46000, .run false [] 46000,
    .run false [firstUpgrade.id] 46000, .publish 2, .settle false 2 (.resolved 1), .record 2,
    .settle true 0 .timedOut, .record 0]

theorem outbox_guarded_takeover : ∃ s row, row.status = .COMPLETED ∧ row.attempts = 2 ∧
    publicationsOf firstUpgrade.id s.log = [0, 2] ∧
    OutboxGuarded (fun _ : Bool => {}) s firstUpgrade.id row := by
  obtain ⟨s, hs, hp⟩ := (outboxMachine fun _ : Bool => {}).reached_of_exec takesOver
    (fun s => (s.rows firstUpgrade.id).any (fun row => row.status = .COMPLETED ∧ row.attempts = 2) &&
      decide (publicationsOf firstUpgrade.id s.log = [0, 2])) (by decide +kernel)
  rw [Bool.and_eq_true, Option.any_eq_true, decide_eq_true_iff] at hp
  obtain ⟨⟨row, hrow, hc⟩, hpublished⟩ := hp
  obtain ⟨hstatus, hattempts⟩ := of_decide_eq_true hc
  exact ⟨s, row, hstatus, hattempts, hpublished, outbox_guarded hs hrow⟩

end CinemaLoyalty
