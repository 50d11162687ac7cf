import CinemaLoyalty.Lib.Paging
import CinemaLoyalty.Outbox.Undisturbed
import Mathlib.Algebra.Group.Action.Defs
import Mathlib.Algebra.Order.BigOperators.Group.List
import Mathlib.Data.Finset.Dedup
import Mathlib.Data.Finset.Order
import Mathlib.Data.Prod.Lex
import Mathlib.Data.String.Basic

/-! @svc OutboxDraining | layer:property | source:src/loyalty/outbox-publisher.service.ts, src/loyalty/notifications/tier-upgrade.listener.ts

    A publisher that is left alone empties the outbox. A call of `publishPendingEvents` made when the
    retries and the leases left behind are due gets on with some row, no row with an attempt left is
    given up, and a call can be made at any time. -/

namespace CinemaLoyalty
open Transition

/-! ### Calls of a publisher left alone -/

section draining
variable {Publisher : Type} [DecidableEq Publisher]

/-- A call of `publishPendingEvents`, from the clock reading `start` to its return. -/
def OutboxState.Call (config : Publisher → OutboxConfig) (order : LinearOrder RowId)
    (p : Publisher) (start : Instant) (s s' : OutboxState Publisher) : Prop :=
  s.now ≤ start ∧ s.publishers p = .idle ∧ s'.publishers p = .idle ∧
    (outboxMachine config).Run (OutboxAction.Undisturbed config order p start)
      ({ s with now := start }.move p .recovering) s'

/-- Every retry is due, and every lease is over. -/
def OutboxState.Due (s : OutboxState Publisher) (start : Instant) : Prop :=
  ∀ id row, s.rows id = some row →
    row.nextAttemptAt ≤ start ∧ ∀ e ∈ row.leaseExpiresAt, e ≤ start

/-- Calls of one publisher, one after another; `n` of them find every retry and lease due. -/
inductive OutboxState.Calls (config : Publisher → OutboxConfig) (order : LinearOrder RowId)
    (p : Publisher) (s : OutboxState Publisher) : ℕ → OutboxState Publisher → Prop
  | none : Calls config order p s 0 s
  | due {n : ℕ} {s₁ s₂ : OutboxState Publisher} {start : Instant} (h : Calls config order p s n s₁)
      (hdue : s₁.Due start) (hc : s₁.Call config order p start s₂) : Calls config order p s (n + 1) s₂
  | early {n : ℕ} {s₁ s₂ : OutboxState Publisher} {start : Instant} (h : Calls config order p s n s₁)
      (hc : s₁.Call config order p start s₂) : Calls config order p s n s₂

section steps
variable {config : Publisher → OutboxConfig} {order : LinearOrder RowId} {p : Publisher}
  {start : Instant} {s s' : OutboxState Publisher} {id : RowId}

/-! ### What is left to do -/

/-- How much is left to do about a row: claims in hand are as good as done. -/
def OutboxEvent.left (held : List ℕ) (row : OutboxEvent) : ℕ :=
  match row.status with
  | .PENDING => 1
  | .PROCESSING => if row.leaseToken.any (· ∈ held) then 0 else 2
  | _ => 0

/-- How much is left to do about the rows of a list. -/
def OutboxState.left (s : OutboxState Publisher) (p : Publisher) (ids : List RowId) : ℕ :=
  (ids.map fun id => (s.rows id).elim 0 (·.left (s.publishers p).held)).sum

theorem left_le (held : List ℕ) (row : OutboxEvent) : row.left held ≤ row.left [] := by
  unfold OutboxEvent.left
  cases row.status with
  | PROCESSING => simp only [List.not_mem_nil, decide_false, Option.any_false]; split <;> simp
  | _ => exact le_rfl

/-- A statement of the call gets on with each row it writes. -/
theorem write_left {q : OutboxStatement} {token : ℕ} {received now : Instant}
    {row row' : OutboxEvent} {held : List ℕ} (hq : q.shared = true)
    (hheld : ∀ leaseMs, q = .claimEvents leaseMs → token ∈ held)
    (h : q.write token received now row = some row') : row'.left held < row.left [] := by
  cases q with
  | recoverExpiredClaims =>
    simp only [OutboxStatement.write, OutboxEvent.recoverExpiredClaim,
      Option.ite_none_right_eq_some, Option.some.injEq] at h
    obtain ⟨⟨hstatus, -, -⟩, rfl⟩ := h
    simp only [OutboxEvent.left, OutboxEvent.retried, hstatus]
    by_cases hspent : row.maxAttempts ≤ row.attempts <;> simp [hspent]
  | failExhaustedPending =>
    simp only [OutboxStatement.write, OutboxEvent.failExhaustedPending,
      Option.ite_none_right_eq_some, Option.some.injEq] at h
    obtain ⟨⟨hstatus, -⟩, rfl⟩ := h
    simp [OutboxEvent.left, hstatus]
  | claimEvents leaseMs =>
    simp only [OutboxStatement.write, OutboxEvent.claim,
      Option.ite_none_right_eq_some, Option.some.injEq] at h
    obtain ⟨⟨hstatus, -, -⟩, rfl⟩ := h
    simp [OutboxEvent.left, hstatus, hheld leaseMs rfl]
  | recordFailure _ _ _ => cases hq
  | recordSuccess _ => cases hq

/-- A statement of the call gets on with the rows it takes, and only with them. -/
theorem executed_left {q : OutboxStatement} {received : Instant} {ids : List RowId}
    {s₁ : OutboxState Publisher} {phase : PublisherPhase} (he : s.Executed q received ids s₁)
    (hq : q.shared = true) (hfree : (s.publishers p).held = [])
    (hheld : ∀ leaseMs, q = .claimEvents leaseMs → ∀ i < ids.length, s.nextToken + i ∈ phase.held)
    (cover : List RowId) :
    (s₁.move p phase).left p cover ≤ s.left p cover ∧
      ((∃ id ∈ ids, id ∈ cover) → (s₁.move p phase).left p cover < s.left p cover) := by
  have hrow : ∀ id, ((s₁.move p phase).rows id).elim 0
        (·.left ((s₁.move p phase).publishers p).held) ≤
      (s.rows id).elim 0 (·.left (s.publishers p).held) ∧
      (id ∈ ids → ((s₁.move p phase).rows id).elim 0
        (·.left ((s₁.move p phase).publishers p).held) <
      (s.rows id).elim 0 (·.left (s.publishers p).held)) := by
    intro id
    rw [move_self, hfree]
    show (s₁.rows id).elim 0 _ ≤ _ ∧ (id ∈ ids → (s₁.rows id).elim 0 _ < _)
    by_cases hid : id ∈ ids
    · obtain ⟨i, hi⟩ := List.mem_iff_getElem?.1 hid
      obtain ⟨row, row', hrow, hwrite, hrow', -⟩ := he.written i id hi
      have hless := write_left hq (fun leaseMs hc =>
        hheld leaseMs hc i (List.getElem?_eq_some_iff.1 hi).1) hwrite
      rw [hrow, hrow', Option.elim_some, Option.elim_some]
      exact ⟨hless.le, fun _ => hless⟩
    · rw [he.kept id hid]
      refine ⟨?_, fun h => absurd h hid⟩
      cases s.rows id with
      | none => exact le_rfl
      | some row => exact left_le phase.held row
  refine ⟨List.sum_le_sum fun id _ => (hrow id).1, ?_⟩
  rintro ⟨id, hid, hcover⟩
  exact List.sum_lt_sum _ _ (fun id _ => (hrow id).1) ⟨id, hcover, (hrow id).2 hid⟩

omit [DecidableEq Publisher] in
/-- The same rows and the same claims in hand. -/
theorem left_same (hrows : s'.rows = s.rows) (hpublishers : s'.publishers = s.publishers)
    (cover : List RowId) : s'.left p cover = s.left p cover := by
  unfold OutboxState.left
  rw [hrows, hpublishers]

/-- No undisturbed step leaves more to do. -/
theorem left_step (ha : s.Attended p) (h : s.Worked config order p start s') (cover : List RowId) :
    s'.left p cover ≤ s.left p cover := by
  cases h with
  | tick hlast => exact (left_same rfl rfl cover).le
  | recovers hphase hstart ht =>
    exact (executed_left (executeAll_executed ht.distinct ht.selected) rfl (by rw [hphase]; rfl)
      (fun _ h => by cases h) cover).1
  | fails hphase ht =>
    exact (executed_left (executeAll_executed ht.distinct ht.selected) rfl (by rw [hphase]; rfl)
      (fun _ h => by cases h) cover).1
  | @claims ids received claimed hphase hstart ht =>
    refine (executed_left (executeAll_executed ht.distinct ht.selected) rfl (by rw [hphase]; rfl)
      (fun _ _ i hi => ?_) cover).1
    rw [if_neg (by omega)]
    exact List.mem_range'.2 ⟨i, hi, by rw [one_mul]⟩
  | @next tokens claimed hphase hdone =>
    -- no row is under a token of a wave that is over
    refine List.sum_le_sum fun id _ => ?_
    rw [move_self, nextWave_free]
    show (s.rows id).elim 0 _ ≤ _
    cases hrow : s.rows id with
    | none => exact le_rfl
    | some row =>
      rw [Option.elim_some, Option.elim_some]
      have hfree : ∀ token ∈ (s.publishers p).held, row.leaseToken ≠ some token :=
        fun token ht => wave_over ha hphase hdone ht hrow
      unfold OutboxEvent.left
      cases row.status with
      | PROCESSING =>
        cases htoken : row.leaseToken with
        | none => simp
        | some token =>
          have hnot : token ∉ (s.publishers p).held := fun ht => hfree token ht htoken
          simp [hnot]
      | _ => exact le_rfl
  | publishes hheld htask => exact (left_same rfl rfl cover).le
  | settles hheld htask => exact (left_same rfl rfl cover).le
  | @records token event failure hheld htask =>
    obtain ⟨row, row', hrow, -, hstatus, -, hrows, -, hpublishers⟩ :=
      record_completes ha hheld htask
    refine List.sum_le_sum fun id _ => ?_
    show ((s.execute event.id _ s.now).rows id).elim 0
      (·.left ((s.execute event.id _ s.now).publishers p).held) ≤ _
    rw [hrows, hpublishers]
    by_cases hid : id = event.id
    · subst hid
      rw [Function.update_self, Option.elim_some]
      simp [OutboxEvent.left, hstatus]
    · rw [Function.update_of_ne hid]

/-! ### A call that finds everything due -/

/-- Completed or failed. -/
def OutboxEvent.Settled (row : OutboxEvent) : Prop := row.status = .COMPLETED ∨ row.status = .FAILED

/-- Where a call stands that has found nothing to do so far. -/
def OutboxState.Passed (s : OutboxState Publisher) (p : Publisher) : Prop :=
  match s.publishers p with
  | .recovering => True
  | .failing => ∀ id row, s.rows id = some row → row.status ≠ .PROCESSING
  | .claiming 0 => ∀ id row, s.rows id = some row → row.status ≠ .PROCESSING ∧
    (row.status = .PENDING → row.attempts < row.maxAttempts)
  | .idle => ∀ id row, s.rows id = some row → row.Settled
  | _ => False

/-- What is known of the outbox during a call: it is reached in some run, the claims in hand are
    attended to, and the rows are among `cover`. -/
structure OutboxState.Tended (config : Publisher → OutboxConfig) (p : Publisher)
    (cover : List RowId) (s : OutboxState Publisher) : Prop where
  reached : (outboxMachine config).Reached s
  attended : s.Attended p
  covered : ∀ id, id ∉ cover → s.rows id = none

theorem tended_step {a : OutboxAction Publisher} {cover : List RowId}
    (ha : a.Undisturbed config order p start s) (h : outboxStep config a s = some s')
    (ht : s.Tended config p cover) : s'.Tended config p cover where
  reached := ht.reached.tail ⟨a, trivial, h⟩
  attended := attended_step (outbox_reached ht.reached).journal ht.attended (undisturbed_worked ha h)
  covered id hid := by
    refine absent_step ?_ h (ht.covered id hid)
    cases a with
    | insert row => cases ha
    | _ => rfl

omit [DecidableEq Publisher] in
/-- With nothing taken, nothing was selected. -/
theorem selects_nothing {q : OutboxStatement} {received : Instant} {limit : ℕ}
    (ht : s.Takes order q received limit []) (hlimit : 0 < limit) (id : RowId) :
    ¬s.Selects q received id :=
  fun h => absurd (ht.full hlimit id h) List.not_mem_nil

/-- A statement that takes a row leaves less to do. -/
theorem took_left {q : OutboxStatement} {received : Instant} {limit : ℕ} {ids cover : List RowId}
    {phase : PublisherPhase} (hcover : ∀ id, id ∉ cover → s.rows id = none)
    (ht : s.Takes order q received limit ids) (hq : q.shared = true)
    (hfree : (s.publishers p).held = [])
    (hheld : ∀ leaseMs, q = .claimEvents leaseMs → ∀ i < ids.length, s.nextToken + i ∈ phase.held)
    (hne : ids ≠ []) :
    ((s.executeAll ids q received).move p phase).left p cover < s.left p cover := by
  refine (executed_left (executeAll_executed ht.distinct ht.selected) hq hfree hheld cover).2 ?_
  obtain ⟨id, hid⟩ := List.exists_mem_of_ne_nil _ hne
  refine ⟨id, hid, by_contra fun hno => ?_⟩
  obtain ⟨row, hrow, -⟩ := selects_iff.1 (ht.selected id hid)
  rw [hcover id hno] at hrow
  cases hrow

/-- Between two claims the same is left to do. -/
theorem left_moved {phase : PublisherPhase} (hfree : (s.publishers p).held = [])
    (hnext : phase.held = []) (cover : List RowId) :
    (s.move p phase).left p cover = s.left p cover := by
  unfold OutboxState.left
  rw [move_self, hnext, hfree]
  rfl

omit [DecidableEq Publisher] in
/-- A call that waits for a claim has found something to do. -/
theorem not_passed {token : ℕ} (h : token ∈ (s.publishers p).held) : ¬s.Passed p := by
  unfold OutboxState.Passed
  cases hphase : s.publishers p with
  | waiting tokens claimed => exact not_false
  | _ =>
    rw [hphase] at h
    cases h

/-- In a call that finds everything due, less is left to do than at first, or it has found nothing to
    do so far. -/
theorem passed_step {cover : List RowId} {n : ℕ} (ht : s.Tended config p cover)
    (h : s.Worked config order p start s')
    (hi : s.left p cover < n ∨ s.left p cover = n ∧ s.Due start ∧ s.Passed p) :
    s'.left p cover < n ∨ s'.left p cover = n ∧ s'.Due start ∧ s'.Passed p := by
  have hj := (outbox_reached ht.reached).journal
  rcases hi with hless | ⟨rfl, hdue, hpassed⟩
  · exact .inl ((left_step ht.attended h cover).trans_lt hless)
  have hphases := hpassed
  unfold OutboxState.Passed at hphases ⊢
  cases h with
  | tick hlast => exact .inr ⟨rfl, hdue, hphases⟩
  | @recovers ids received hphase hstart htakes =>
    have hfree : (s.publishers p).held = [] := by rw [hphase]; rfl
    by_cases hids : ids = []
    · subst hids
      refine .inr ⟨left_moved hfree rfl cover, hdue, ?_⟩
      rw [move_self]
      rintro id row (hrow : s.rows id = some row) hstatus
      have hsound := hj.sound id row hrow
      obtain ⟨e, he⟩ := Option.isSome_iff_exists.1 (hsound.expiry.2 hstatus)
      refine selects_nothing htakes (by decide) id (selects_iff.2 ⟨row, hrow, ?_⟩)
      have hover : e ≤ received := ((hdue id row hrow).2 e he).trans hstart
      simp [OutboxStatement.write, OutboxEvent.recoverExpiredClaim, hstatus,
        hsound.token.2 hstatus, he, hover]
    · exact .inl (took_left ht.covered htakes rfl hfree (fun _ h => by cases h) hids)
  | @fails ids received hphase htakes =>
    have hfree : (s.publishers p).held = [] := by rw [hphase]; rfl
    rw [hphase] at hphases
    by_cases hids : ids = []
    · subst hids
      refine .inr ⟨left_moved hfree rfl cover, hdue, ?_⟩
      rw [move_self]
      rintro id row (hrow : s.rows id = some row)
      refine ⟨hphases id row hrow, fun hstatus => by_contra fun hspent => ?_⟩
      refine selects_nothing htakes (by decide) id (selects_iff.2 ⟨row, hrow, ?_⟩)
      simp [OutboxStatement.write, OutboxEvent.failExhaustedPending, hstatus, not_lt.1 hspent]
    · exact .inl (took_left ht.covered htakes rfl hfree (fun _ h => by cases h) hids)
  | @claims ids received claimed hphase hstart htakes =>
    have hfree : (s.publishers p).held = [] := by rw [hphase]; rfl
    rw [hphase] at hphases
    cases claimed with
    | succ claimed => exact hphases.elim
    | zero =>
      by_cases hids : ids = []
      · subst hids
        refine .inr ⟨left_moved hfree rfl cover, hdue, ?_⟩
        rw [move_self]
        rintro id row (hrow : s.rows id = some row)
        have hlimit : 0 < min (config p).publishConcurrency (BATCH_SIZE - 0) :=
          lt_min (config p).publishConcurrency_range.1 (by decide)
        have hnone := selects_nothing htakes hlimit id
        obtain ⟨hother, hleft⟩ := hphases id row hrow
        cases hstatus : row.status with
        | PENDING =>
          refine absurd (selects_iff.2 ⟨row, hrow, ?_⟩) hnone
          have hnext : row.nextAttemptAt ≤ received := (hdue id row hrow).1.trans hstart
          simp [OutboxStatement.write, OutboxEvent.claim, hstatus, hleft hstatus, hnext]
        | PROCESSING => exact absurd hstatus hother
        | COMPLETED => exact .inl hstatus
        | FAILED => exact .inr hstatus
      · refine .inl (took_left ht.covered htakes rfl hfree (fun _ _ i hi => ?_) hids)
        rw [if_neg (by omega)]
        exact List.mem_range'.2 ⟨i, hi, by rw [one_mul]⟩
  | next hphase hdone =>
    rw [hphase] at hphases
    exact hphases.elim
  | publishes hheld htask => exact absurd hpassed (not_passed hheld)
  | settles hheld htask => exact absurd hpassed (not_passed hheld)
  | records hheld htask => exact absurd hpassed (not_passed hheld)

/-- A row that will be completed: it is, or it is a claim in hand, or it has an attempt left. -/
def OutboxState.Promising (s : OutboxState Publisher) (p : Publisher) (id : RowId) : Prop :=
  ∃ row, s.rows id = some row ∧ (row.status = .COMPLETED ∨
    row.status = .PROCESSING ∧ (∃ token ∈ (s.publishers p).held, row.leaseToken = some token) ∨
    row.status ≠ .FAILED ∧ row.attempts < row.maxAttempts)

/-- What a statement of the call makes of a row with an attempt left. -/
theorem promising_executed {q : OutboxStatement} {received : Instant} {ids : List RowId}
    {s₁ : OutboxState Publisher} {phase : PublisherPhase} (he : s.Executed q received ids s₁)
    (hq : q.shared = true) (hfree : (s.publishers p).held = [])
    (hheld : ∀ leaseMs, q = .claimEvents leaseMs → ∀ i < ids.length, s.nextToken + i ∈ phase.held)
    (h : s.Promising p id) : (s₁.move p phase).Promising p id := by
  obtain ⟨row, hrow, hpromise⟩ := h
  have hno : ¬∃ token ∈ (s.publishers p).held, row.leaseToken = some token := by
    rw [hfree]
    simp
  simp only [hno, and_false, false_or] at hpromise
  unfold OutboxState.Promising
  rw [move_self]
  by_cases hid : id ∈ ids
  · obtain ⟨i, hi⟩ := List.mem_iff_getElem?.1 hid
    obtain ⟨row₁, row', hrow₁, hwrite, hrow', -⟩ := he.written i id hi
    obtain rfl : row = row₁ := Option.some.inj (hrow.symm.trans hrow₁)
    refine ⟨row', hrow', ?_⟩
    cases q with
    | recoverExpiredClaims =>
      simp only [OutboxStatement.write, OutboxEvent.recoverExpiredClaim,
        Option.ite_none_right_eq_some, Option.some.injEq] at hwrite
      obtain ⟨⟨hstatus, -, -⟩, rfl⟩ := hwrite
      obtain ⟨-, hleft⟩ := hpromise.resolve_left (by rw [hstatus]; decide)
      exact .inr (.inr ⟨by simp [OutboxEvent.retried, not_le.2 hleft], hleft⟩)
    | failExhaustedPending =>
      simp only [OutboxStatement.write, OutboxEvent.failExhaustedPending,
        Option.ite_none_right_eq_some, Option.some.injEq] at hwrite
      obtain ⟨⟨hstatus, hspent⟩, rfl⟩ := hwrite
      obtain ⟨-, hleft⟩ := hpromise.resolve_left (by rw [hstatus]; decide)
      exact absurd hleft (not_lt.2 hspent)
    | claimEvents leaseMs =>
      simp only [OutboxStatement.write, OutboxEvent.claim,
        Option.ite_none_right_eq_some, Option.some.injEq] at hwrite
      obtain ⟨-, rfl⟩ := hwrite
      exact .inr (.inl ⟨rfl, _, hheld leaseMs rfl i (List.getElem?_eq_some_iff.1 hi).1, rfl⟩)
    | recordFailure _ _ _ => cases hq
    | recordSuccess _ => cases hq
  · exact ⟨row, (he.kept id hid).trans hrow, hpromise.elim .inl fun h => .inr (.inr h)⟩

/-- No undisturbed step gives up a row with an attempt left. -/
theorem promising_step (ha : s.Attended p) (h : s.Worked config order p start s')
    (hi : s.Promising p id) : s'.Promising p id := by
  cases h with
  | tick hlast => exact hi
  | recovers hphase hstart ht =>
    exact promising_executed (executeAll_executed ht.distinct ht.selected) rfl (by rw [hphase]; rfl)
      (fun _ h => by cases h) hi
  | fails hphase ht =>
    exact promising_executed (executeAll_executed ht.distinct ht.selected) rfl (by rw [hphase]; rfl)
      (fun _ h => by cases h) hi
  | claims hphase hstart ht =>
    refine promising_executed (executeAll_executed ht.distinct ht.selected) rfl (by rw [hphase]; rfl)
      (fun _ _ i hi => ?_) hi
    rw [if_neg (by omega)]
    exact List.mem_range'.2 ⟨i, hi, by rw [one_mul]⟩
  | next hphase hdone =>
    obtain ⟨row, hrow, hpromise⟩ := hi
    refine ⟨row, hrow, hpromise.imp_right fun h => h.elim ?_ .inr⟩
    rintro ⟨-, token, ht, htoken⟩
    exact absurd htoken (wave_over ha hphase hdone ht hrow)
  | publishes hheld htask => exact hi
  | settles hheld htask => exact hi
  | @records token event failure hheld htask =>
    obtain ⟨row, row', hrow, -, hstatus, -, hrows, -, hpublishers⟩ :=
      record_completes ha hheld htask
    obtain ⟨row₁, hrow₁, hpromise⟩ := hi
    show ∃ row, (s.execute event.id _ s.now).rows id = some row ∧ (_ ∨ _ ∧
      (∃ token ∈ ((s.execute event.id _ s.now).publishers p).held, _) ∨ _)
    rw [hrows, hpublishers]
    by_cases hid : id = event.id
    · subst hid
      exact ⟨row', Function.update_self .., .inl hstatus⟩
    · exact ⟨row₁, (Function.update_of_ne hid ..).trans hrow₁, hpromise⟩

/-! ### Calls -/

/-- A call begins with nothing in hand. -/
theorem call_begins {cover : List RowId} (hr : (outboxMachine config).Reached s)
    (hcover : ∀ id, id ∉ cover → s.rows id = none) (hle : s.now ≤ start)
    (hidle : s.publishers p = .idle) :
    ({ s with now := start }.move p .recovering).Tended config p cover where
  reached := by
    have hticked : (outboxMachine config).Reached { s with now := start } :=
      hr.tail ⟨.tick start, trivial, if_pos hle⟩
    refine hticked.tail ⟨.begin p, trivial, ?_⟩
    simp only [outboxMachine, outboxStep, hidle]
  attended := attended_move rfl fun _ h => by cases h
  covered := hcover

omit [DecidableEq Publisher] in
/-- With every row settled nothing is left to do. -/
theorem left_settled (h : ∀ id row, s.rows id = some row → row.Settled) (cover : List RowId) :
    s.left p cover = 0 := by
  refine List.sum_eq_zero fun n hn => ?_
  obtain ⟨id, -, rfl⟩ := List.mem_map.1 hn
  cases hrow : s.rows id with
  | none => rfl
  | some row =>
    rcases h id row hrow with hstatus | hstatus <;> simp [OutboxEvent.left, hstatus]

/-- What a call comes to. -/
theorem call_ends {cover : List RowId} (hr : (outboxMachine config).Reached s)
    (hcover : ∀ id, id ∉ cover → s.rows id = none) (h : s.Call config order p start s') :
    (outboxMachine config).Reached s' ∧ (∀ id, id ∉ cover → s'.rows id = none) ∧
      s'.left p cover ≤ s.left p cover ∧
      (s.Due start → s'.left p cover < s.left p cover ∨ s'.left p cover = 0) ∧
      ∀ id, s.Promising p id → s'.Promising p id := by
  obtain ⟨hle, hidle, hover, hrun⟩ := h
  have hbegun := call_begins hr hcover hle hidle
  have hfree : (s.publishers p).held = [] := by rw [hidle]; rfl
  generalize hs₁ : ({ s with now := start } : OutboxState Publisher).move p .recovering = s₁
    at hrun hbegun
  have hsame : s₁.left p cover = s.left p cover :=
    hs₁ ▸ left_moved (s := { s with now := start }) hfree rfl cover
  have hkept : s'.Tended config p cover ∧ s'.left p cover ≤ s.left p cover ∧
      (s.Due start → s'.left p cover < s.left p cover ∨
        s'.left p cover = s.left p cover ∧ s'.Due start ∧ s'.Passed p) ∧
      ∀ id, s.Promising p id → s'.Promising p id := by
    refine hrun.keeps (I := fun x => x.Tended config p cover ∧ x.left p cover ≤ s.left p cover ∧
      (s.Due start → x.left p cover < s.left p cover ∨
        x.left p cover = s.left p cover ∧ x.Due start ∧ x.Passed p) ∧
      ∀ id, s.Promising p id → x.Promising p id) (fun ha hstep hi => ?_) ?_
    · have hworked := undisturbed_worked ha hstep
      obtain ⟨ht, hle, hpassed, hpromise⟩ := hi
      exact ⟨tended_step ha hstep ht, (left_step ht.attended hworked cover).trans hle,
        fun hdue => passed_step ht hworked (hpassed hdue),
        fun id hp => promising_step ht.attended hworked (hpromise id hp)⟩
    · refine ⟨hbegun, hsame.le, fun hdue => .inr ⟨hsame, hs₁ ▸ hdue, ?_⟩, fun id hp => ?_⟩
      · rw [← hs₁]
        unfold OutboxState.Passed
        rw [move_self]
        trivial
      · obtain ⟨row, hrow, hpromise⟩ := hp
        rw [← hs₁]
        refine ⟨row, hrow, hpromise.imp_right fun h => h.imp_left ?_⟩
        rintro ⟨-, token, ht, -⟩
        rw [hfree] at ht
        cases ht
  obtain ⟨ht, hless, hpassed, hpromise⟩ := hkept
  refine ⟨ht.reached, ht.covered, hless, fun hdue => ?_, hpromise⟩
  refine (hpassed hdue).imp_right fun hall => left_settled ?_ cover
  have hend := hall.2.2
  unfold OutboxState.Passed at hend
  rwa [hover] at hend

/-- What calls come to: each that finds everything due leaves less to do, until nothing is. -/
theorem calls_end {cover : List RowId} {n : ℕ} (hr : (outboxMachine config).Reached s)
    (hcover : ∀ id, id ∉ cover → s.rows id = none) (hidle : s.publishers p = .idle)
    (h : s.Calls config order p n s') :
    (outboxMachine config).Reached s' ∧ (∀ id, id ∉ cover → s'.rows id = none) ∧
      s'.publishers p = .idle ∧ (s'.left p cover + n ≤ s.left p cover ∨ s'.left p cover = 0) ∧
      ∀ id, s.Promising p id → s'.Promising p id := by
  induction h with
  | none => exact ⟨hr, hcover, hidle, .inl le_rfl, fun _ hp => hp⟩
  | due _ hdue hc ih =>
    obtain ⟨hr₁, hcover₁, -, hleft₁, hpromise₁⟩ := ih
    obtain ⟨hr₂, hcover₂, hle, hless, hpromise₂⟩ := call_ends hr₁ hcover₁ hc
    refine ⟨hr₂, hcover₂, hc.2.2.1, ?_, fun id hp => hpromise₂ id (hpromise₁ id hp)⟩
    have hdone := hless hdue
    omega
  | early _ hc ih =>
    obtain ⟨hr₁, hcover₁, -, hleft₁, hpromise₁⟩ := ih
    obtain ⟨hr₂, hcover₂, hle, -, hpromise₂⟩ := call_ends hr₁ hcover₁ hc
    refine ⟨hr₂, hcover₂, hc.2.2.1, ?_, fun id hp => hpromise₂ id (hpromise₁ id hp)⟩
    omega

omit [DecidableEq Publisher] in
/-- A row counts for two at most. -/
theorem left_bound (s : OutboxState Publisher) (p : Publisher) (cover : List RowId) :
    s.left p cover ≤ 2 * cover.length := by
  have hrow : ∀ id ∈ cover, (s.rows id).elim 0 (·.left (s.publishers p).held) ≤ 2 := by
    intro id _
    cases s.rows id with
    | none => exact Nat.zero_le _
    | some row =>
      rw [Option.elim_some]
      unfold OutboxEvent.left
      cases row.status with
      | PROCESSING => simp only; split <;> omega
      | _ => simp
  have hsum := List.sum_le_card_nsmul _ 2 (List.forall_mem_map.2 hrow)
  rw [List.length_map, smul_eq_mul, mul_comm] at hsum
  exact hsum

omit [DecidableEq Publisher] in
/-- A publisher with nothing in hand and nothing left to do has completed or failed every row. -/
theorem settled_of_left {cover : List RowId} (hfree : (s.publishers p).held = [])
    (h : s.left p cover = 0) (hid : id ∈ cover) {row : OutboxEvent} (hrow : s.rows id = some row) :
    row.Settled := by
  unfold OutboxState.left at h
  have hzero := List.sum_eq_zero_iff.1 h _ (List.mem_map_of_mem hid)
  rw [hrow, Option.elim_some, hfree] at hzero
  unfold OutboxEvent.left at hzero
  unfold OutboxEvent.Settled
  cases hstatus : row.status with
  | PENDING => rw [hstatus] at hzero; cases hzero
  | PROCESSING => rw [hstatus] at hzero; simp at hzero
  | COMPLETED => exact .inl rfl
  | FAILED => exact .inr rfl

/-! ### Calls that can be made -/

omit [DecidableEq Publisher] in
/-- Whatever is selected, there are rows to take. -/
theorem exists_takes (order : LinearOrder RowId) {cover : List RowId}
    (hcover : ∀ id, id ∉ cover → s.rows id = none) (q : OutboxStatement) (received : Instant)
    (limit : ℕ) :
    ∃ ids, s.Takes order q received limit ids := by
  classical
  let _ := order
  let age : RowId → Instant ×ₗ RowId := fun id => toLex ((s.rows id).elim 0 (·.createdAt), id)
  obtain ⟨ids, hnodup, hlength, hsub, hothers⟩ := Paging.exists_first (Order.Preimage age (· ≤ ·))
    ((List.nodup_dedup cover).filter fun id => decide (s.Selects q received id)) limit
  have hselects : ∀ id, id ∈ cover.dedup.filter (fun id => decide (s.Selects q received id)) ↔
      s.Selects q received id := by
    intro id
    rw [List.mem_filter, List.mem_dedup, decide_eq_true_iff]
    refine and_iff_right_of_imp fun h => by_contra fun hno => ?_
    obtain ⟨row, hrow, -⟩ := selects_iff.1 h
    rw [hcover id hno] at hrow
    cases hrow
  refine ⟨ids, hnodup, hlength, fun id hid => (hselects id).1 (hsub id hid), fun hshort id hid => ?_,
    fun id hid id' hid' hnot row row' hrow hrow' => ?_⟩
  · exact by_contra fun hnot => hshort.ne (hothers id ((hselects id).2 hid) hnot).1
  · have hne : id ≠ id' := fun heq => hnot (heq ▸ hid)
    have hle : age id ≤ age id' := (hothers id' ((hselects id').2 hid') hnot).2 id hid
    rw [Prod.Lex.le_iff] at hle
    simp only [age, hrow, hrow', Option.elim_some, ofLex_toLex] at hle
    exact hle.imp_right fun h => ⟨h.1, lt_of_le_of_ne h.2 hne⟩

/-- The steps that a claim still needs. -/
def Task.left : Task → ℕ
  | .claimed _ => 3
  | .publishing _ => 2
  | .recording _ _ => 1
  | _ => 0

theorem task_left_le (task : Task) : task.left ≤ 3 := by
  cases task <;> simp only [Task.left] <;> omega

/-- A bound on the steps that a call still needs. -/
def OutboxState.remaining (s : OutboxState Publisher) (p : Publisher) : ℕ :=
  match s.publishers p with
  | .recovering => 5 * BATCH_SIZE + 2
  | .failing => 5 * BATCH_SIZE + 1
  | .claiming claimed => 5 * (BATCH_SIZE - claimed)
  | .waiting tokens claimed =>
    5 * (BATCH_SIZE - claimed) + 1 + (tokens.map fun token => (s.tasks token).left).sum
  | .idle => 0

omit [DecidableEq Publisher] in
/-- A claim in hand that moves on leaves fewer steps. -/
theorem remaining_advance {token : ℕ} {task : Task} (hheld : token ∈ (s.publishers p).held)
    (hpublishers : s'.publishers = s.publishers)
    (htasks : s'.tasks = Function.update s.tasks token task)
    (hless : task.left < (s.tasks token).left) : s'.remaining p < s.remaining p := by
  unfold OutboxState.remaining
  rw [hpublishers]
  cases hphase : s.publishers p with
  | waiting tokens claimed =>
    rw [hphase] at hheld
    have hself : (s'.tasks token).left < (s.tasks token).left := by
      rw [htasks, Function.update_self]
      exact hless
    refine Nat.add_lt_add_left (List.sum_lt_sum _ _ (fun token' _ => ?_) ⟨token, hheld, hself⟩) _
    by_cases heq : token' = token
    · exact heq ▸ hself.le
    · rw [htasks, Function.update_of_ne heq]
  | _ =>
    rw [hphase] at hheld
    cases hheld

/-- A claim in hand that is not over can move on. -/
theorem claim_proceeds (ha : s.Attended p) {token : ℕ} (hheld : token ∈ (s.publishers p).held)
    (hopen : s.tasks token ≠ .done) :
    ∃ a s', OutboxAction.Undisturbed config order p start a s ∧ outboxStep config a s = some s' ∧
      s'.now = s.now ∧ s'.remaining p < s.remaining p := by
  rcases ha.tasks token hheld with ⟨hover, -⟩ | ⟨event, row, -, -, hstage⟩
  · exact absurd hover hopen
  rcases hstage with htask | htask | htask
  · refine ⟨.publish token, s.advance token (.publishing event) [.published token event.publication],
      hheld, ?_, rfl, remaining_advance hheld rfl rfl ?_⟩
    · simp only [outboxStep, htask]
    · rw [htask]
      exact Nat.lt_succ_self _
  · refine ⟨.settle p token (.resolved 1),
      s.advance token (.recording event none) [.accepted token event.publication 1],
      ⟨rfl, hheld, rfl⟩, ?_, rfl, remaining_advance hheld rfl rfl ?_⟩
    · simp only [outboxStep, htask]
      rfl
    · rw [htask]
      exact Nat.lt_succ_self _
  · obtain ⟨-, -, -, -, -, -, -, htasks, hpublishers⟩ :=
      record_completes ha hheld htask
    have hdone : ((s.execute event.id (outcomeStatement token event none) s.now).advance token .done
        []).tasks = Function.update s.tasks token .done := by
      rw [← htasks]
      rfl
    refine ⟨.record token,
      (s.execute event.id (outcomeStatement token event none) s.now).advance token .done [],
      hheld, ?_, OutboxState.execute_now, remaining_advance hheld hpublishers hdone ?_⟩
    · simp only [outboxStep, htask]
    · rw [htask]
      exact Nat.lt_succ_self _

/-- A call that is not over can go on. -/
theorem call_proceeds (order : LinearOrder RowId) {cover : List RowId}
    (ht : s.Tended config p cover) (hstart : start ≤ s.now) (hbusy : s.publishers p ≠ .idle) :
    ∃ a s', OutboxAction.Undisturbed config order p start a s ∧ outboxStep config a s = some s' ∧
      s'.now = s.now ∧ s'.remaining p < s.remaining p := by
  have hexecuted : ∀ {q : OutboxStatement} {limit : ℕ} {ids : List RowId},
      s.Takes order q s.now limit ids → s.Executed q s.now ids (s.executeAll ids q s.now) :=
    fun h => executeAll_executed h.distinct h.selected
  cases hphase : s.publishers p with
  | idle => exact absurd hphase hbusy
  | recovering =>
    obtain ⟨ids, htakes⟩ := exists_takes order ht.covered .recoverExpiredClaims s.now BATCH_SIZE
    refine ⟨.run p ids s.now, (s.executeAll ids .recoverExpiredClaims s.now).move p .failing,
      ⟨rfl, hstart, _, _, by rw [hphase]; rfl, htakes⟩, ?_, (hexecuted htakes).now, ?_⟩
    · simp only [outboxStep, OutboxState.runPublisher, hphase, if_pos le_rfl, if_pos htakes.within]
    · unfold OutboxState.remaining
      rw [move_self, hphase]
      exact Nat.lt_succ_self _
  | failing =>
    obtain ⟨ids, htakes⟩ := exists_takes order ht.covered .failExhaustedPending s.now BATCH_SIZE
    refine ⟨.run p ids s.now, (s.executeAll ids .failExhaustedPending s.now).move p (.claiming 0),
      ⟨rfl, hstart, _, _, by rw [hphase]; rfl, htakes⟩, ?_, (hexecuted htakes).now, ?_⟩
    · simp only [outboxStep, OutboxState.runPublisher, hphase, if_pos le_rfl, if_pos htakes.within]
      rfl
    · unfold OutboxState.remaining
      rw [move_self, hphase]
      exact Nat.lt_succ_self _
  | claiming claimed =>
    obtain ⟨ids, htakes⟩ := exists_takes order ht.covered
      (.claimEvents (config p).leaseMs) s.now (min (config p).publishConcurrency (BATCH_SIZE - claimed))
    have hexec := hexecuted htakes
    refine ⟨.run p ids s.now, (s.executeAll ids (.claimEvents (config p).leaseMs) s.now).move p
        (if ids.length = 0 then .idle
          else .waiting (List.range' s.nextToken ids.length) (claimed + ids.length)),
      ⟨rfl, hstart, _, _, by rw [hphase]; rfl, htakes⟩, ?_, hexec.now, ?_⟩
    · simp only [outboxStep, OutboxState.runPublisher, hphase, if_pos le_rfl, if_pos htakes.within,
        hexec.nextToken, Nat.add_sub_cancel_left]
    · have hwave := ht.attended.wave claimed hphase
      have hwithin := (le_min_iff.1 htakes.within).2
      unfold OutboxState.remaining
      rw [move_self, hphase]
      by_cases hids : ids.length = 0
      · rw [if_pos hids]
        simp only
        omega
      · rw [if_neg hids]
        have htasks : ∀ n ∈ (List.range' s.nextToken ids.length).map fun token =>
            (((s.executeAll ids (.claimEvents (config p).leaseMs) s.now).move p
              (.waiting (List.range' s.nextToken ids.length) (claimed + ids.length))).tasks token).left,
            n ≤ 3 := by
          intro n hn
          obtain ⟨token, -, rfl⟩ := List.mem_map.1 hn
          exact task_left_le _
        have hsum := List.sum_le_card_nsmul _ 3 htasks
        rw [List.length_map, List.length_range', smul_eq_mul] at hsum
        simp only
        omega
  | waiting tokens claimed =>
    by_cases hdone : ∀ token ∈ tokens, s.tasks token = .done
    · refine ⟨.next p, s.move p (nextWave claimed), rfl, ?_, rfl, ?_⟩
      · simp only [outboxStep, hphase]
        refine if_pos (List.all_eq_true.2 fun token ht => ?_)
        rw [hdone token ht]
      · unfold OutboxState.remaining nextWave
        rw [move_self, hphase]
        by_cases hmore : claimed < BATCH_SIZE
        · rw [if_pos hmore]
          simp only
          omega
        · rw [if_neg hmore]
          simp only
          omega
    · simp only [not_forall] at hdone
      obtain ⟨token, htoken, hopen⟩ := hdone
      have hheld : token ∈ (s.publishers p).held := by
        rw [hphase]
        exact htoken
      exact claim_proceeds ht.attended hheld hopen

/-- A call can be made at any time. -/
theorem exists_call {cover : List RowId} (hr : (outboxMachine config).Reached s)
    (hcover : ∀ id, id ∉ cover → s.rows id = none) (hidle : s.publishers p = .idle)
    (hle : s.now ≤ start) : ∃ s', s.Call config order p start s' := by
  have hproceeds : ∀ s, (s.Tended config p cover ∧ start ≤ s.now) → s.publishers p ≠ .idle →
      ∃ a s', OutboxAction.Undisturbed config order p start a s ∧
        (outboxMachine config).step a s = some s' ∧
        (s'.Tended config p cover ∧ start ≤ s'.now) ∧ s'.remaining p < s.remaining p := by
    rintro s ⟨ht, hstart⟩ hbusy
    obtain ⟨a, s', ha, hstep, hnow, hless⟩ := call_proceeds order ht hstart hbusy
    exact ⟨a, s', ha, hstep, ⟨tended_step ha hstep ht, hnow ▸ hstart⟩, hless⟩
  obtain ⟨s', hrun, hover⟩ := System.exists_run (fun s : OutboxState Publisher => s.remaining p)
    hproceeds ⟨call_begins hr hcover hle hidle, le_rfl⟩
  exact ⟨s', hle, hidle, hover, hrun⟩

omit [DecidableEq Publisher] in
/-- In time everything is due. -/
theorem exists_due {cover : List RowId} (hcover : ∀ id, id ∉ cover → s.rows id = none) :
    ∃ start, s.now ≤ start ∧ s.Due start := by
  obtain ⟨start, hstart⟩ := Finset.exists_le (s.now :: cover.flatMap fun id =>
    (s.rows id).elim [] fun row => row.nextAttemptAt :: row.leaseExpiresAt.toList).toFinset
  simp only [List.mem_toFinset, List.mem_cons, List.mem_flatMap] at hstart
  refine ⟨start, hstart _ (.inl rfl), fun id row hrow => ?_⟩
  have hid : id ∈ cover := by
    by_contra hno
    rw [hcover id hno] at hrow
    cases hrow
  have hall : ∀ t ∈ row.nextAttemptAt :: row.leaseExpiresAt.toList, t ≤ start := fun t ht =>
    hstart t (.inr ⟨id, hid, by rw [hrow]; exact ht⟩)
  exact ⟨hall _ List.mem_cons_self, fun e he =>
    hall e (List.mem_cons_of_mem _ (Option.mem_toList.2 he))⟩

/-! ### Beside the service -/

omit [DecidableEq Publisher] in
theorem undisturbed_insert {a : OutboxAction Publisher} (ha : a.Undisturbed config order p start s) :
    a.isInsert = false := by
  cases a with
  | insert row => cases ha
  | _ => rfl

/-- A call is made of steps of the publisher and the clock. -/
theorem call_beside (db : DB) (h : s.Call config order p start s') :
    (announcing config).Leads ⟨db, s⟩ ⟨db, s'⟩ := by
  obtain ⟨hle, hidle, -, hrun⟩ := h
  have hticks : (announcing config).step (.publisher (.tick start)) ⟨db, s⟩ =
      some ⟨db, { s with now := start }⟩ := announcing_publisher rfl (if_pos hle)
  have hbegins : (announcing config).step (.publisher (.begin p)) ⟨db, { s with now := start }⟩ =
      some ⟨db, { s with now := start }.move p .recovering⟩ := by
    refine announcing_publisher rfl ?_
    simp only [outboxStep, hidle]
  refine .head ⟨_, trivial, hticks⟩ (.head ⟨_, trivial, hbegins⟩ ?_)
  refine Relation.ReflTransGen.lift (Announcing.mk db) (fun s₁ s₂ hstep => ?_) _ _ hrun
  obtain ⟨a, ha, hstep⟩ := hstep
  exact ⟨.publisher a, trivial, announcing_publisher (undisturbed_insert ha) hstep⟩

theorem calls_beside (db : DB) {n : ℕ} (h : s.Calls config order p n s') :
    (announcing config).Leads ⟨db, s⟩ ⟨db, s'⟩ := by
  induction h with
  | none => exact .refl
  | due _ _ hc ih => exact ih.trans (call_beside db hc)
  | early _ hc ih => exact ih.trans (call_beside db hc)

/-- Calls that are enough complete every row with an attempt left. -/
theorem calls_complete {cover : List RowId} {n : ℕ} (hr : (outboxMachine config).Reached s)
    (hcover : ∀ id, id ∉ cover → s.rows id = none) (hidle : s.publishers p = .idle)
    (hn : 2 * cover.length ≤ n) (h : s.Calls config order p n s') {row : OutboxEvent}
    (hrow : s.rows id = some row) (hleft : row.attempts < row.maxAttempts) :
    ∃ row', s'.rows id = some row' ∧ row'.status = .COMPLETED := by
  obtain ⟨hr', hcover', hidle', hdone, hpromise⟩ := calls_end hr hcover hidle h
  have hbound := left_bound s p cover
  have hnone : s'.left p cover = 0 := by omega
  have hfree : (s'.publishers p).held = [] := by rw [hidle']; rfl
  have hsound := (outbox_reached hr).journal.sound id row hrow
  have hopen : row.status ≠ .FAILED := fun hfailed => hleft.ne (hsound.exhausted hfailed)
  obtain ⟨row', hrow', hpromised⟩ := hpromise id ⟨row, hrow, .inr (.inr ⟨hopen, hleft⟩)⟩
  have hid : id ∈ cover := by
    by_contra hno
    rw [hcover' id hno] at hrow'
    cases hrow'
  refine ⟨row', hrow', ?_⟩
  rcases settled_of_left hfree hnone hid hrow' with hcompleted | hfailed
  · exact hcompleted
  · rcases hpromised with hcompleted | ⟨hprocessing, -⟩ | ⟨hnot, -⟩
    · exact hcompleted
    · rw [hprocessing] at hfailed
      cases hfailed
    · exact absurd hfailed hnot

/-- From any state that any run of the service and its publishers reaches, whatever claims were left
    behind, a publisher that is then left alone can make calls without end. Two calls for each row of
    the outbox, each made when the retries and the leases left behind are due, confirm the message of
    every upgrade whose row has an attempt left. -/
theorem upgrades_settle {s : Announcing Publisher} (h : (announcing config).Reached s)
    (hidle : s.outbox.publishers p = .idle) {n : ℕ} {o : OutboxState Publisher}
    (hcalls : s.outbox.Calls config order p n o) :
    (announcing config).Reached ⟨s.db, o⟩ ∧
      (∀ start, o.now ≤ start → ∃ o', o.Call config order p start o') ∧
      (∃ start, o.now ≤ start ∧ o.Due start) ∧
      (2 * s.db.outboxEvents.length ≤ n → ∀ row ∈ s.db.outboxEvents,
        (∃ row', s.outbox.rows row.id = some row' ∧ row'.attempts < 5) →
          row.message ∈ confirmedMessages o.log) := by
  have ha := announced_reached h
  obtain ⟨hr, hcover, hover, -, -⟩ := calls_end ha.outbox ha.known hidle hcalls
  have hreached : (announcing config).Reached ⟨s.db, o⟩ := h.trans (calls_beside s.db hcalls)
  refine ⟨hreached, fun start hle => exists_call hr hcover hover hle, exists_due hcover,
    fun hn row hmem hleft => ?_⟩
  obtain ⟨row', hrow', hattempts⟩ := hleft
  obtain ⟨row₁, hrow₁, -, hmax⟩ := ha.stored row hmem
  obtain rfl : row' = row₁ := Option.some.inj (hrow'.symm.trans hrow₁)
  rw [ha.written.budget hmem] at hmax
  rw [← List.length_map (·.id)] at hn
  obtain ⟨row₂, hrow₂, hcompleted⟩ :=
    calls_complete ha.outbox ha.known hidle hn hcalls hrow' (hmax ▸ hattempts)
  rcases (announced_reached hreached).confirmed hmem with hconfirmed | ⟨row₃, hrow₃, hopen, -⟩
  · exact hconfirmed
  · obtain rfl : row₂ = row₃ := Option.some.inj (hrow₂.symm.trans hrow₃)
    exact absurd hcompleted hopen

end steps

end draining

/-- A publisher claims the rise of a VIP and dies. -/
def vipClaimed : List (AnnouncingAction Bool) :=
  .operate (.call (.grantVipStatusGrpc ⟨_, _, nilText_named⟩ "admin" "") 1000) ::
    [.tick 1000, .begin true, .run true [] 1000, .run true [] 1000,
      .run true [⟨Uuid.nil, 0⟩] 1000].map AnnouncingAction.publisher

/-- Ids in the order of their owners and positions. -/
@[reducible] def RowId.ordered : LinearOrder RowId :=
  LinearOrder.lift' (fun id => toLex (id.userId.text, id.seq)) fun id id' h => by
    obtain ⟨⟨text, _⟩, seq⟩ := id
    obtain ⟨⟨text', _⟩, seq'⟩ := id'
    obtain ⟨rfl, rfl⟩ := Prod.mk.inj (toLex.injective h)
    rfl

/-- Two calls of the other one confirm it. -/
theorem upgrades_settle_vip : ∃ (s : Announcing Bool) (o : OutboxState Bool),
    (announcing fun _ : Bool => {}).Reached ⟨s.db, o⟩ ∧ confirmedMessages s.outbox.log = [] ∧
      ∃ m, m ∈ confirmedMessages o.log := by
  obtain ⟨s, hs, hp⟩ := (announcing fun _ : Bool => {}).reached_of_exec vipClaimed
    (fun s => decide (s.outbox.publishers false = .idle ∧ confirmedMessages s.outbox.log = [] ∧
      s.db.outboxEvents.length = 1) && s.db.outboxEvents.any fun row =>
        (s.outbox.rows row.id).any fun row' : OutboxEvent => decide (row'.attempts < 5))
    (by decide +kernel)
  rw [Bool.and_eq_true, decide_eq_true_iff, List.any_eq_true] at hp
  obtain ⟨⟨hidle, hnone, hlength⟩, row, hrow, hany⟩ := hp
  obtain ⟨row', hrow', hleft⟩ := (Option.any_eq_true _ _).1 hany
  have hfirst : s.outbox.Calls (fun _ => {}) RowId.ordered false 0 s.outbox := .none
  obtain ⟨-, hcall, ⟨start₁, hle₁, hdue₁⟩, -⟩ := upgrades_settle hs hidle hfirst
  obtain ⟨o₁, hcall₁⟩ := hcall start₁ hle₁
  obtain ⟨-, hcall, ⟨start₂, hle₂, hdue₂⟩, -⟩ := upgrades_settle hs hidle (hfirst.due hdue₁ hcall₁)
  obtain ⟨o₂, hcall₂⟩ := hcall start₂ hle₂
  obtain ⟨hreached, -, -, hconfirmed⟩ :=
    upgrades_settle hs hidle ((hfirst.due hdue₁ hcall₁).due hdue₂ hcall₂)
  exact ⟨s, o₂, hreached, hnone, _,
    hconfirmed (by omega) row hrow ⟨row', hrow', of_decide_eq_true hleft⟩⟩

end CinemaLoyalty
