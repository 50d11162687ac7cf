import CinemaLoyalty.Outbox.Announcements

/-! @svc OutboxUndisturbed | layer:property | source:src/loyalty/outbox-publisher.service.ts

    A publisher that is left alone. Its statements take what `ORDER BY created_at, id LIMIT` takes of
    the rows they select, its listener answers, and it attends to every claim before the lease is
    over. Each claim in hand then stays the owner of its row until the row is completed. -/

namespace CinemaLoyalty
open Transition

/-! ### A publisher left alone -/

/-- The statement a publisher waits for, and its limit. -/
def PublisherPhase.statement (config : OutboxConfig) : PublisherPhase → Option (OutboxStatement × ℕ)
  | .recovering => some (.recoverExpiredClaims, BATCH_SIZE)
  | .failing => some (.failExhaustedPending, BATCH_SIZE)
  | .claiming claimed =>
    some (.claimEvents config.leaseMs, min config.publishConcurrency (BATCH_SIZE - claimed))
  | _ => none

/-- The claims a publisher waits for. -/
def PublisherPhase.held : PublisherPhase → List ℕ
  | .waiting tokens _ => tokens
  | _ => []

/-- The condition of a statement selects a row. -/
def OutboxState.Selects {Publisher : Type} (s : OutboxState Publisher) (q : OutboxStatement)
    (received : Instant) (id : RowId) : Prop :=
  (s.written id q received).isSome = true

/-- What a statement takes while nobody else has a row locked: the first rows it selects by
    `ORDER BY created_at, id`, up to its limit. `order` is the database's order of ids. -/
structure OutboxState.Takes {Publisher : Type} (s : OutboxState Publisher)
    (order : LinearOrder RowId) (q : OutboxStatement) (received : Instant) (limit : ℕ)
    (ids : List RowId) : Prop where
  distinct : ids.Nodup
  within : ids.length ≤ limit
  selected : ∀ id ∈ ids, s.Selects q received id
  full : ids.length < limit → ∀ id, s.Selects q received id → id ∈ ids
  oldest : ∀ id ∈ ids, ∀ id', s.Selects q received id' → id' ∉ ids → ∀ row row',
    s.rows id = some row → s.rows id' = some row' →
    row.createdAt < row'.createdAt ∨ row.createdAt = row'.createdAt ∧ order.lt id id'

section alone
variable {Publisher : Type} [DecidableEq Publisher]

/-- A step of a call that began at `start`, with nobody else at the outbox: its statements take what
    they select, its listener answers and its records arrive, all before the leases are over. -/
def OutboxAction.Undisturbed (config : Publisher → OutboxConfig) (order : LinearOrder RowId)
    (p : Publisher) (start : Instant) : OutboxAction Publisher → OutboxState Publisher → Prop
  | .tick now, s => ∀ id row, s.rows id = some row → ∀ token ∈ (s.publishers p).held,
    row.leaseToken = some token → ∀ e ∈ row.leaseExpiresAt, now < e
  | .run p' ids received, s => p' = p ∧ start ≤ received ∧ ∃ q limit,
    (s.publishers p).statement (config p) = some (q, limit) ∧ s.Takes order q received limit ids
  | .next p', _ => p' = p
  | .publish token, s => token ∈ (s.publishers p).held
  | .settle p' token emission, s => p' = p ∧ token ∈ (s.publishers p).held ∧
    emission.failure (config p) = none
  | .record token, s => token ∈ (s.publishers p).held
  | _, _ => False

/-! ### Statements -/

section statements
variable {s s' : OutboxState Publisher} {q : OutboxStatement} {received : Instant} {id : RowId}
  {ids : List RowId}

/-- The token decides nothing about whether a row is selected. -/
theorem write_isSome_congr (token token' : ℕ) (received now : Instant) (row : OutboxEvent) :
    (q.write token received now row).isSome = (q.write token' received now row).isSome := by
  cases q with
  | claimEvents leaseMs =>
    simp only [OutboxStatement.write, OutboxEvent.claim]
    split <;> rfl
  | _ => rfl

omit [DecidableEq Publisher] in
theorem selects_iff : s.Selects q received id ↔
    ∃ row, s.rows id = some row ∧ (q.write 0 received s.now row).isSome = true := by
  unfold OutboxState.Selects OutboxState.written
  cases s.rows id with
  | none => simp
  | some row => simp [write_isSome_congr s.nextToken 0]

/-- A statement on the rows it takes: each is written under a token of its own. -/
structure OutboxState.Executed (s : OutboxState Publisher) (q : OutboxStatement)
    (received : Instant) (ids : List RowId) (s' : OutboxState Publisher) : Prop where
  now : s'.now = s.now
  publishers : s'.publishers = s.publishers
  nextToken : s'.nextToken = s.nextToken + ids.length
  tasks : ∀ token < s.nextToken, s'.tasks token = s.tasks token
  kept : ∀ id, id ∉ ids → s'.rows id = s.rows id
  written : ∀ (i : ℕ) (id : RowId), ids[i]? = some id → ∃ row row', s.rows id = some row ∧
    q.write (s.nextToken + i) received s.now row = some row' ∧ s'.rows id = some row' ∧
    ∀ leaseMs, q = .claimEvents leaseMs → s'.tasks (s.nextToken + i) = .claimed row'

omit [DecidableEq Publisher] in
theorem execute_executed (h : s.Selects q received id) :
    s.Executed q received [id] (s.execute id q received) := by
  obtain ⟨written, hw⟩ := Option.isSome_iff_exists.1 h
  rcases s.execute_cases id q received with heq | ⟨row, row', hrow, hwrite, heq⟩
  · have htoken := congrArg OutboxState.nextToken heq
    simp only [OutboxState.execute, hw] at htoken
    omega
  rw [heq]
  refine ⟨rfl, rfl, rfl, fun token ht => ?_, fun id' hid => ?_, fun i id' hi => ?_⟩
  · cases q with
    | claimEvents leaseMs => exact Function.update_of_ne ht.ne ..
    | _ => rfl
  · exact Function.update_of_ne (by simpa using hid) ..
  · cases i with
    | succ i => simp at hi
    | zero =>
      obtain rfl : id = id' := by simpa using hi
      refine ⟨row, row', hrow, hwrite, Function.update_self .., fun leaseMs hq => ?_⟩
      subst hq
      exact Function.update_self ..

omit [DecidableEq Publisher] in
/-- The rows of a statement one after another. -/
theorem OutboxState.Executed.cons {s₁ s₂ : OutboxState Publisher}
    (h₁ : s.Executed q received [id] s₁) (h₂ : s₁.Executed q received ids s₂) (hnew : id ∉ ids) :
    s.Executed q received (id :: ids) s₂ := by
  have htoken : s₁.nextToken = s.nextToken + 1 := h₁.nextToken
  refine ⟨h₂.now.trans h₁.now, h₂.publishers.trans h₁.publishers, ?_, fun token ht => ?_,
    fun id' hid => ?_, fun i id' hi => ?_⟩
  · rw [h₂.nextToken, htoken, List.length_cons]
    omega
  · rw [h₂.tasks token (by omega), h₁.tasks token ht]
  · rw [List.mem_cons, not_or] at hid
    rw [h₂.kept id' hid.2, h₁.kept id' (by simpa using hid.1)]
  · cases i with
    | zero =>
      obtain rfl : id = id' := by simpa using hi
      obtain ⟨row, row', hrow, hwrite, hrow', htask⟩ := h₁.written 0 id rfl
      refine ⟨row, row', hrow, hwrite, (h₂.kept id hnew).trans hrow', fun leaseMs hq => ?_⟩
      rw [h₂.tasks _ (by omega)]
      exact htask leaseMs hq
    | succ i =>
      obtain ⟨row, row', hrow, hwrite, hrow', htask⟩ := h₂.written i id' (by simpa using hi)
      have hne : id' ≠ id := by
        rintro rfl
        exact hnew (List.mem_of_getElem? (by simpa using hi))
      have hplace : s₁.nextToken + i = s.nextToken + (i + 1) := by omega
      rw [h₁.kept id' (by simpa using hne)] at hrow
      rw [h₁.now, hplace] at hwrite
      rw [hplace] at htask
      exact ⟨row, row', hrow, hwrite, hrow', htask⟩

omit [DecidableEq Publisher] in
theorem executeAll_executed (hids : ids.Nodup) (hsel : ∀ id ∈ ids, s.Selects q received id) :
    s.Executed q received ids (s.executeAll ids q received) := by
  induction ids generalizing s with
  | nil => exact ⟨rfl, rfl, rfl, fun _ _ => rfl, fun _ _ => rfl, fun i id h => by simp at h⟩
  | cons id ids ih =>
    obtain ⟨hnew, hids⟩ := List.nodup_cons.1 hids
    have hfirst := execute_executed (hsel id List.mem_cons_self)
    refine hfirst.cons (ih hids fun id' hid => ?_) hnew
    obtain ⟨row, hrow, hsome⟩ := selects_iff.1 (hsel id' (List.mem_cons_of_mem _ hid))
    have hne : id' ≠ id := fun heq => hnew (heq ▸ hid)
    refine selects_iff.2 ⟨row, (hfirst.kept id' (by simpa using hne)).trans hrow, ?_⟩
    rw [hfirst.now]
    exact hsome

end statements

/-! ### Steps of a call -/

section steps
variable {config : Publisher → OutboxConfig} {order : LinearOrder RowId} {p : Publisher}
  {start : Instant} {s s' : OutboxState Publisher} {id : RowId}

/-- An undisturbed step, by what it changes. -/
inductive OutboxState.Worked (config : Publisher → OutboxConfig) (order : LinearOrder RowId)
    (p : Publisher) (start : Instant) (s : OutboxState Publisher) : OutboxState Publisher → Prop
  | tick {now : Instant} (hlast : ∀ id row, s.rows id = some row →
      ∀ token ∈ (s.publishers p).held, row.leaseToken = some token →
        ∀ e ∈ row.leaseExpiresAt, now < e) : Worked config order p start s { s with now }
  | recovers {ids : List RowId} {received : Instant} (hphase : s.publishers p = .recovering)
      (hstart : start ≤ received) (ht : s.Takes order .recoverExpiredClaims received BATCH_SIZE ids) :
      Worked config order p start s
        ((s.executeAll ids .recoverExpiredClaims received).move p .failing)
  | fails {ids : List RowId} {received : Instant} (hphase : s.publishers p = .failing)
      (ht : s.Takes order .failExhaustedPending received BATCH_SIZE ids) :
      Worked config order p start s
        ((s.executeAll ids .failExhaustedPending received).move p (.claiming 0))
  | claims {ids : List RowId} {received : Instant} {claimed : ℕ}
      (hphase : s.publishers p = .claiming claimed) (hstart : start ≤ received)
      (ht : s.Takes order (.claimEvents (config p).leaseMs) received
        (min (config p).publishConcurrency (BATCH_SIZE - claimed)) ids) :
      Worked config order p start s
        ((s.executeAll ids (.claimEvents (config p).leaseMs) received).move p
          (if ids.length = 0 then .idle
            else .waiting (List.range' s.nextToken ids.length) (claimed + ids.length)))
  | next {tokens : List ℕ} {claimed : ℕ} (hphase : s.publishers p = .waiting tokens claimed)
      (hdone : ∀ token ∈ tokens, s.tasks token = .done) :
      Worked config order p start s (s.move p (nextWave claimed))
  | publishes {token : ℕ} {event : OutboxEvent} (hheld : token ∈ (s.publishers p).held)
      (htask : s.tasks token = .claimed event) :
      Worked config order p start s
        (s.advance token (.publishing event) [.published token event.publication])
  | settles {token : ℕ} {event : OutboxEvent} {events : List OutboxLog}
      (hheld : token ∈ (s.publishers p).held) (htask : s.tasks token = .publishing event) :
      Worked config order p start s (s.advance token (.recording event none) events)
  | records {token : ℕ} {event : OutboxEvent} {failure : Option String}
      (hheld : token ∈ (s.publishers p).held) (htask : s.tasks token = .recording event failure) :
      Worked config order p start s
        ((s.execute event.id (outcomeStatement token event failure) s.now).advance token .done [])

theorem undisturbed_worked {a : OutboxAction Publisher} (ha : a.Undisturbed config order p start s)
    (h : outboxStep config a s = some s') : s.Worked config order p start s' := by
  cases a with
  | tick now =>
    simp only [outboxStep, Option.ite_none_right_eq_some, Option.some.injEq] at h
    obtain ⟨-, rfl⟩ := h
    exact .tick ha
  | run p' ids received =>
    obtain ⟨rfl, hstart, q, limit, hq, ht⟩ := ha
    simp only [outboxStep, Option.ite_none_right_eq_some] at h
    obtain ⟨-, h⟩ := h
    unfold OutboxState.runPublisher at h
    cases hphase : s.publishers p' with
    | recovering =>
      rw [hphase] at hq h
      cases hq
      simp only [Option.ite_none_right_eq_some, Option.some.injEq] at h
      obtain ⟨-, rfl⟩ := h
      exact .recovers hphase hstart ht
    | failing =>
      rw [hphase] at hq h
      cases hq
      simp only [Option.ite_none_right_eq_some, Option.some.injEq] at h
      obtain ⟨-, rfl⟩ := h
      exact .fails hphase ht
    | claiming claimed =>
      rw [hphase] at hq h
      cases hq
      simp only [Option.ite_none_right_eq_some, Option.some.injEq] at h
      obtain ⟨-, rfl⟩ := h
      have hcount := (executeAll_executed ht.distinct ht.selected).nextToken
      rw [hcount, Nat.add_sub_cancel_left]
      exact .claims hphase hstart ht
    | idle => rw [hphase] at hq; cases hq
    | waiting tokens claimed => rw [hphase] at hq; cases hq
  | next p' =>
    obtain rfl := ha
    cases hphase : s.publishers p' with
    | waiting tokens claimed =>
      simp only [outboxStep, hphase, Option.ite_none_right_eq_some, Option.some.injEq] at h
      obtain ⟨hall, rfl⟩ := h
      refine .next hphase fun token ht => ?_
      have hdone := List.all_eq_true.1 hall token ht
      cases htask : s.tasks token <;> rw [htask] at hdone <;> first | rfl | cases hdone
    | _ =>
      simp only [outboxStep, hphase] at h
      cases h
  | publish token =>
    simp only [outboxStep] at h
    split at h <;> cases h
    exact .publishes ha ‹_›
  | settle p' token emission =>
    obtain ⟨rfl, hheld, hanswer⟩ := ha
    simp only [outboxStep] at h
    split at h <;> cases h
    rw [hanswer]
    exact .settles hheld ‹_›
  | record token =>
    simp only [outboxStep] at h
    split at h <;> cases h
    exact .records ha ‹_›
  | _ => cases ha

/-! ### Claims in hand -/

/-- The claims a publisher waits for: each is the only one under its token, and it is either over or
    on its way with a lease that holds. -/
structure OutboxState.Attended (s : OutboxState Publisher) (p : Publisher) : Prop where
  wave : ∀ claimed, s.publishers p = .claiming claimed → claimed < BATCH_SIZE
  sole : ∀ token ∈ (s.publishers p).held, ∀ id row id' row', s.rows id = some row →
    s.rows id' = some row' → row.leaseToken = some token → row'.leaseToken = some token → id = id'
  tasks : ∀ token ∈ (s.publishers p).held,
    (s.tasks token = .done ∧ ∀ id row, s.rows id = some row → row.leaseToken ≠ some token) ∨
    ∃ event row, s.rows event.id = some row ∧ row.OwnedBy token s.now ∧
      (s.tasks token = .claimed event ∨ s.tasks token = .publishing event ∨
        s.tasks token = .recording event none)

theorem move_self (phase : PublisherPhase) : (s.move p phase).publishers p = phase :=
  Function.update_self ..

/-- A publisher that moves on to a phase without claims has none in hand. -/
theorem attended_move {phase : PublisherPhase} (hheld : phase.held = [])
    (hwave : ∀ claimed, phase = .claiming claimed → claimed < BATCH_SIZE) :
    (s.move p phase).Attended p where
  wave := by rwa [move_self]
  sole _ ht := by rw [move_self, hheld] at ht; cases ht
  tasks _ ht := by rw [move_self, hheld] at ht; cases ht

theorem nextWave_free (claimed : ℕ) : (nextWave claimed).held = [] := by
  unfold nextWave
  split <;> rfl

omit [DecidableEq Publisher] in
/-- The token of a row was drawn before. -/
theorem token_drawn (hj : OutboxJournal s) {row : OutboxEvent} {token : ℕ}
    (hrow : s.rows id = some row) (ht : row.leaseToken = some token) : token < s.nextToken := by
  have hsound := hj.sound id row hrow
  have hprocessing := hsound.token.1 (by rw [ht]; rfl)
  obtain ⟨e, he⟩ := Option.isSome_iff_exists.1 (hsound.expiry.2 hprocessing)
  have hlease : row.lease = some ⟨token, e⟩ := OutboxEvent.lease_eq.2 ⟨ht, he⟩
  exact hj.fresh id token (Leasing.mem_tokens (hsound.fenced.held _ hlease).1)

/-- A row that is claimed is owned under the token that was drawn. -/
theorem claim_owned {leaseMs : ℤ} {token : ℕ} {received now : Instant} {row row' : OutboxEvent}
    (hlease : 0 < leaseMs) (h : row.claim leaseMs token received now = some row') :
    row'.OwnedBy token now ∧ row'.id = row.id := by
  simp only [OutboxEvent.claim, Option.ite_none_right_eq_some, Option.some.injEq] at h
  obtain ⟨-, rfl⟩ := h
  exact ⟨⟨rfl, rfl, _, rfl, lt_add_of_pos_right now hlease⟩, rfl⟩

/-- A wave of claims. -/
theorem attended_claims (hj : OutboxJournal s) {ids : List RowId} {received : Instant} {claimed : ℕ}
    {s₁ : OutboxState Publisher}
    (he : s.Executed (.claimEvents (config p).leaseMs) received ids s₁) :
    (s₁.move p (.waiting (List.range' s.nextToken ids.length) (claimed + ids.length))).Attended p := by
  have hlease : 0 < (config p).leaseMs := by
    have hrange := (config p).lease_range
    omega
  -- a row under a token of the wave is the one that was written under it
  have hplace : ∀ i id row, i < ids.length → s₁.rows id = some row →
      row.leaseToken = some (s.nextToken + i) → ids[i]? = some id := by
    intro i id row hi hrow ht
    by_cases hid : id ∈ ids
    · obtain ⟨i', hi'⟩ := List.mem_iff_getElem?.1 hid
      obtain ⟨_, row', -, hwrite, hrow', -⟩ := he.written i' id hi'
      obtain rfl := Option.some.inj (hrow.symm.trans hrow')
      have hown := (claim_owned hlease hwrite).1.2.1
      have hsame : s.nextToken + i' = s.nextToken + i := Option.some.inj (hown.symm.trans ht)
      obtain rfl : i' = i := by omega
      exact hi'
    · rw [he.kept id hid] at hrow
      have hold := token_drawn hj hrow ht
      omega
  refine ⟨fun claimed' h => ?_, fun token ht id row id' row' hrow hrow' hid hid' => ?_,
    fun token ht => .inr ?_⟩
  · rw [move_self] at h
    cases h
  · rw [move_self] at ht
    obtain ⟨i, hi, rfl⟩ := List.mem_range'.1 ht
    rw [one_mul] at hid hid'
    exact Option.some.inj
      ((hplace i id row hi hrow hid).symm.trans (hplace i id' row' hi hrow' hid'))
  · rw [move_self] at ht
    obtain ⟨i, hi, rfl⟩ := List.mem_range'.1 ht
    obtain ⟨row, row', hrow, hwrite, hrow', htask⟩ := he.written i ids[i] (List.getElem?_eq_getElem hi)
    obtain ⟨hown, hid⟩ := claim_owned hlease hwrite
    rw [one_mul]
    refine ⟨row', row', ?_, ?_, .inl (htask _ rfl)⟩
    · rw [hid, hj.named _ row hrow]
      exact hrow'
    · show row'.OwnedBy _ s₁.now
      rw [he.now]
      exact hown

omit [DecidableEq Publisher] in
/-- A step that leaves the rows and the leases of the claims in hand. -/
theorem OutboxState.Attended.of_rows (ha : s.Attended p) (hrows : s'.rows = s.rows)
    (hpublishers : s'.publishers = s.publishers)
    (htasks : ∀ token ∈ (s.publishers p).held,
      (s'.tasks token = .done ∧ ∀ id row, s.rows id = some row → row.leaseToken ≠ some token) ∨
      ∃ event row, s.rows event.id = some row ∧ row.OwnedBy token s'.now ∧
        (s'.tasks token = .claimed event ∨ s'.tasks token = .publishing event ∨
          s'.tasks token = .recording event none)) : s'.Attended p where
  wave := by rw [hpublishers]; exact ha.wave
  sole := by rw [hpublishers, hrows]; exact ha.sole
  tasks := by rw [hpublishers, hrows]; exact htasks

omit [DecidableEq Publisher] in
/-- A claim in hand moves on. -/
theorem attended_advance (ha : s.Attended p) {token : ℕ} {event : OutboxEvent} {task : Task}
    {events : List OutboxLog} (hheld : token ∈ (s.publishers p).held)
    (htask : s.tasks token = .claimed event ∨ s.tasks token = .publishing event)
    (hnext : task = .publishing event ∨ task = .recording event none) :
    (s.advance token task events).Attended p := by
  refine ha.of_rows rfl rfl fun token' ht => ?_
  by_cases heq : token' = token
  · subst heq
    rcases ha.tasks token' hheld with ⟨hdone, -⟩ | ⟨event', row, hrow, hown, hstage⟩
    · rcases htask with htask | htask <;> rw [htask] at hdone <;> cases hdone
    · have hsame : event' = event := by
        rcases htask with htask | htask <;> rw [htask] at hstage <;> rcases hstage with h | h | h <;>
          cases h <;> rfl
      subst hsame
      have hself : (s.advance token' task events).tasks token' = task := Function.update_self ..
      rw [hself]
      exact .inr ⟨event', row, hrow, hown, .inr hnext⟩
  · have hother : (s.advance token task events).tasks token' = s.tasks token' :=
      Function.update_of_ne heq ..
    rw [hother]
    exact ha.tasks token' ht

omit [DecidableEq Publisher] in
/-- The record of a claim in hand completes its row. -/
theorem record_completes (ha : s.Attended p) {token : ℕ} {event : OutboxEvent}
    {failure : Option String} (hheld : token ∈ (s.publishers p).held)
    (htask : s.tasks token = .recording event failure) :
    ∃ row row', s.rows event.id = some row ∧ row.OwnedBy token s.now ∧ row'.status = .COMPLETED ∧
      row'.leaseToken = none ∧
      (s.execute event.id (outcomeStatement token event failure) s.now).rows =
        Function.update s.rows event.id (some row') ∧
      (s.execute event.id (outcomeStatement token event failure) s.now).tasks = s.tasks ∧
      (s.execute event.id (outcomeStatement token event failure) s.now).publishers = s.publishers := by
  rcases ha.tasks token hheld with ⟨hdone, -⟩ | ⟨event', row, hrow, hown, hstage⟩
  · rw [htask] at hdone
    cases hdone
  rw [htask] at hstage
  rcases hstage with h | h | h <;> cases h
  obtain ⟨row', hwritten, hstatus, hfree⟩ : ∃ row',
      s.written event.id (.recordSuccess token) s.now = some row' ∧ row'.status = .COMPLETED ∧
        row'.leaseToken = none := by
    unfold OutboxState.written
    rw [hrow]
    exact ⟨_, if_pos hown, rfl, rfl⟩
  refine ⟨row, row', hrow, hown, hstatus, hfree, ?_⟩
  unfold outcomeStatement OutboxState.execute
  simp only [hwritten, and_self]

omit [DecidableEq Publisher] in
theorem attended_records (ha : s.Attended p) {token : ℕ} {event : OutboxEvent}
    {failure : Option String} (hheld : token ∈ (s.publishers p).held)
    (htask : s.tasks token = .recording event failure) :
    ((s.execute event.id (outcomeStatement token event failure) s.now).advance token .done []).Attended
      p := by
  obtain ⟨row, row', hrow, hown, -, hfree, hrows, htasks, hpublishers⟩ :=
    record_completes ha hheld htask
  have hnow : (s.execute event.id (outcomeStatement token event failure) s.now).now = s.now :=
    OutboxState.execute_now
  generalize s.execute event.id (outcomeStatement token event failure) s.now = s₁ at *
  -- a row that is leased now was leased before
  have hbefore : ∀ id row₁ token', s₁.rows id = some row₁ → row₁.leaseToken = some token' →
      s.rows id = some row₁ ∧ id ≠ event.id := by
    intro id row₁ token' h₁ ht
    rw [hrows] at h₁
    by_cases hid : id = event.id
    · subst hid
      rw [Function.update_self] at h₁
      obtain rfl := Option.some.inj h₁
      rw [hfree] at ht
      cases ht
    · exact ⟨by rwa [Function.update_of_ne hid] at h₁, hid⟩
  have hphase : (s₁.advance token .done []).publishers = s.publishers := hpublishers
  refine ⟨fun claimed h => ?_, fun token' ht id row₁ id' row₁' h₁ h₁' hid hid' => ?_,
    fun token' ht => ?_⟩
  · rw [hphase] at h
    exact ha.wave claimed h
  · rw [hphase] at ht
    exact ha.sole token' ht id row₁ id' row₁' (hbefore id row₁ token' h₁ hid).1
      (hbefore id' row₁' token' h₁' hid').1 hid hid'
  · rw [hphase] at ht
    by_cases heq : token' = token
    · subst heq
      refine .inl ⟨Function.update_self .., fun id row₁ h₁ hid => ?_⟩
      obtain ⟨hold, hne⟩ := hbefore id row₁ token' h₁ hid
      exact hne (ha.sole token' hheld id row₁ event.id row hold hrow hid hown.2.1)
    · have hother : (s₁.advance token .done []).tasks token' = s.tasks token' :=
        (Function.update_of_ne heq ..).trans (congrFun htasks token')
      rw [hother]
      rcases ha.tasks token' ht with ⟨hdone, hnone⟩ | ⟨event', row₁, h₁, hown₁, hstage⟩
      · exact .inl ⟨hdone, fun id row₁ h₁ hid => hnone id row₁ (hbefore id row₁ token' h₁ hid).1 hid⟩
      · refine .inr ⟨event', row₁, ?_, ?_, hstage⟩
        · show s₁.rows event'.id = some row₁
          rw [hrows]
          refine (Function.update_of_ne ?_ ..).trans h₁
          intro hsame
          rw [hsame, hrow] at h₁
          obtain rfl := Option.some.inj h₁
          exact heq (Option.some.inj (hown₁.2.1.symm.trans hown.2.1))
        · show row₁.OwnedBy token' s₁.now
          rw [hnow]
          exact hown₁

omit [DecidableEq Publisher] in
/-- When a wave is over, no row is under a token of it. -/
theorem wave_over (ha : s.Attended p) {tokens : List ℕ} {claimed token : ℕ}
    (hphase : s.publishers p = .waiting tokens claimed) (hdone : ∀ t ∈ tokens, s.tasks t = .done)
    (ht : token ∈ (s.publishers p).held) {row : OutboxEvent} (hrow : s.rows id = some row) :
    row.leaseToken ≠ some token := by
  rcases ha.tasks token ht with ⟨-, hnone⟩ | ⟨event, row₁, -, -, hstage⟩
  · exact hnone id row hrow
  · rw [hphase] at ht
    rw [hdone token ht] at hstage
    rcases hstage with h | h | h <;> cases h

/-- Every undisturbed step keeps the claims in hand. -/
theorem attended_step (hj : OutboxJournal s) (ha : s.Attended p)
    (h : s.Worked config order p start s') : s'.Attended p := by
  cases h with
  | tick hlast =>
    refine ha.of_rows rfl rfl fun token ht => ?_
    rcases ha.tasks token ht with hdone | ⟨event, row, hrow, hown, hstage⟩
    · exact .inl hdone
    · obtain ⟨hstatus, htoken, e, he, -⟩ := hown
      exact .inr ⟨event, row, hrow,
        ⟨hstatus, htoken, e, he, hlast event.id row hrow token ht htoken e he⟩, hstage⟩
  | recovers hphase hstart ht => exact attended_move rfl fun _ h => by cases h
  | fails hphase ht => exact attended_move rfl fun _ h => by cases h; decide
  | @claims ids received claimed hphase hstart ht =>
    split
    · exact attended_move rfl fun _ h => by cases h
    · exact attended_claims hj (executeAll_executed ht.distinct ht.selected)
  | @next tokens claimed hphase hdone =>
    refine attended_move (nextWave_free claimed) fun claimed' h => ?_
    unfold nextWave at h
    split at h <;> cases h
    assumption
  | publishes hheld htask => exact attended_advance ha hheld (.inl htask) (.inl rfl)
  | settles hheld htask => exact attended_advance ha hheld (.inr htask) (.inr rfl)
  | records hheld htask => exact attended_records ha hheld htask

end steps

end alone

end CinemaLoyalty
