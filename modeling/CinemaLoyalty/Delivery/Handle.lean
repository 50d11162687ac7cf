import CinemaLoyalty.Delivery.Rows

/-! @svc DeliveryHandle | layer:model | source:src/loyalty/consumers/rmq-delivery.service.ts (handle), src/loyalty/consumers/ticket-purchased.consumer.ts, src/loyalty/consumers/user-date-of-birth-set.consumer.ts

    One call of `handle` for one copy of a message. It runs without interruption between two awaits,
    so its state is the await it is suspended at, with the answer once there is one, and a turn is
    what happens there: the copy is handed over, a signal is raised, the answer or an error comes
    back, the process dies, the business transaction commits, `work` finishes. -/

namespace CinemaLoyalty

/-- `RETURNING` of `claim`. -/
structure Claimed where
  attempts : ℤ
  maxAttempts : ℤ
  leaseToken : ℕ

/-- The await a call is suspended at. A query holds its answer once the server has given one. -/
inductive Phase
  | idle
  | admitting (answered : Bool)
  | reading (rows : Option (Option DeliveryState))
  | quarantining (saved : Option Bool)
  | delaying
  | claiming (rows : Option (Option Claimed))
  | working (claimed : Claimed) (committed : Bool)
  | recording (claimed : Claimed) (failure : Option Failure) (answered : Bool)
  | backingOff (claimed : Claimed) (failure : Option Failure)
  | returned
  | crashed

/-- What is observed of a system of calls, and of the rows they share. -/
inductive Event (Copy : Type)
  | row (id : String) (e : RowEvent)
  | handed (c : Copy)
  | signalled (c : Copy)
  | started (c : Copy) (token : ℕ)
  | committed (c : Copy)
  | succeeded (c : Copy)
  | acked (c : Copy) (quarantined : Bool)
  | returned (c : Copy)
  deriving DecidableEq

/-- The local variables of a call: where it waits, `admitted`, `signal.aborted`, and the business
    transactions it gave up on whose commit is still open. -/
structure Handle where
  phase : Phase := .idle
  admitted : Bool := false
  aborted : Bool := false
  late : ℕ := 0

namespace Handle
variable {Copy : Type} (c : Copy) (h : Handle)

/-- `return`. -/
def leave (events : List (Event Copy)) : Handle × List (Event Copy) :=
  ({ h with phase := .returned }, events ++ [.returned c])

/-- `if (!signal.aborted) channel.ack(message); return`. -/
def ack (quarantined : Bool) : Handle × List (Event Copy) :=
  h.leave c (if h.aborted then [] else [.acked c quarantined])

/-- The head of the outer loop, up to its first query. -/
def loop : Handle × List (Event Copy) :=
  if h.aborted then h.leave c []
  else ({ h with phase := if h.admitted then .reading none else .admitting false }, [])

/-- The outer loop's `catch`; its `delay` ends early, and with it the call, once aborted. -/
def caught : Handle × List (Event Copy) :=
  if h.aborted then h.leave c [] else ({ h with phase := .delaying }, [])

/-- The head of the recording loop. -/
def record (claimed : Claimed) (failure : Option Failure) : Handle × List (Event Copy) :=
  if h.aborted then h.leave c [] else ({ h with phase := .recording claimed failure false }, [])

/-- What the call does with the row it has read. -/
def inspect (state : DeliveryState) : Handle × List (Event Copy) :=
  if state.completedAt.isSome || state.quarantinedAt.isSome then
    h.ack c state.quarantinedAt.isSome
  else if !state.leaseActive &&
      (state.quarantineRequired || decide (state.maxAttempts ≤ state.attempts)) then
    ({ h with phase := .quarantining none }, [])
  else if state.leaseActive || decide (0 < state.waitMs) then ({ h with phase := .delaying }, [])
  else ({ h with phase := .claiming none }, [])

/-- The await is over without an error. -/
def resume : Option (Handle × List (Event Copy)) :=
  match h.phase with
  | .admitting true => some ({ h with admitted := true, phase := .reading none }, [])
  | .reading (some none) => some (h.caught c)
  | .reading (some (some state)) => some (h.inspect c state)
  | .quarantining (some saved) => some (if saved then h.ack c true else h.loop c)
  | .delaying => some (h.loop c)
  | .claiming (some none) => some (h.loop c)
  | .claiming (some (some claimed)) =>
    some ({ h with phase := .working claimed false }, [.started c claimed.leaseToken])
  | .recording _ (some _) true => some (h.loop c)
  | .recording _ none true => some (h.ack c false)
  | .backingOff claimed failure => some (h.record c claimed failure)
  | _ => none

/-- The query fails, or its answer is lost. -/
def lose : Option (Handle × List (Event Copy)) :=
  match h.phase with
  | .admitting _ | .reading _ | .quarantining _ | .claiming _ => some (h.caught c)
  | .recording claimed failure _ => some ({ h with phase := .backingOff claimed failure }, [])
  | _ => none

/-- The process dies; a business transaction under way may still commit. -/
def crash : Option (Handle × List (Event Copy)) :=
  match h.phase with
  | .idle | .returned | .crashed => none
  | .working _ false => some ({ h with phase := .crashed, late := h.late + 1 }, [])
  | _ => some ({ h with phase := .crashed }, [])

/-- The business transaction of the running `work` commits. -/
def commit : Option (Handle × List (Event Copy)) :=
  match h.phase with
  | .working claimed false => some ({ h with phase := .working claimed true }, [.committed c])
  | _ => none

/-- A business transaction that was given up on commits after all. -/
def commitLate : Option (Handle × List (Event Copy)) :=
  if 0 < h.late then some ({ h with late := h.late - 1 }, [.committed c]) else none

/-- `work` returns or throws. The setter returns only after its transaction has committed; a
    purchase that was processed before returns without one. -/
def finish (operation : Operation) (thrown : Option Thrown) : Option (Handle × List (Event Copy)) :=
  match h.phase, thrown with
  | .working claimed committed, none =>
    if operation = .UserDateOfBirthSet ∧ committed = false then none
    else some ((h.record c claimed none).map id ([.succeeded c] ++ ·))
  | .working claimed committed, some error =>
    some ({ h with late := if committed then h.late else h.late + 1 }.record c claimed
      (some (classifyMessageFailure error)))
  | _, _ => none

/-- The broker hands the copy over. -/
def hand : Option (Handle × List (Event Copy)) :=
  match h.phase with
  | .idle => some ((h.loop c).map id ([.handed c] ++ ·))
  | _ => none

/-- Shutdown, or the channel closes. -/
def signal : Handle × List (Event Copy) := ({ h with aborted := true }, [.signalled c])

end Handle

/-- What happens to a call at its await. -/
inductive Turn
  | hand | signal | resume | lose | crash | commit | commitLate
  | finish (thrown : Option Thrown)

/-- The call after a turn, and what is observed; `none` where the turn cannot happen. -/
def Handle.turn {Copy : Type} (operation : Operation) (c : Copy) (h : Handle) :
    Turn → Option (Handle × List (Event Copy))
  | .hand => h.hand c
  | .signal => some (h.signal c)
  | .resume => h.resume c
  | .lose => h.lose c
  | .crash => h.crash
  | .commit => h.commit c
  | .commitLate => h.commitLate c
  | .finish thrown => h.finish c operation thrown

/-- A turn after which the server may still run the query the call was waiting for. -/
def Turn.abandons : Turn → Bool
  | .lose | .crash => true
  | _ => false

/-! ### What a turn does -/

section turns
variable {Copy : Type}

/-- The phases of a call that has neither claimed nor ended. -/
inductive Phase.Polling : Phase → Prop
  | admitting {answered : Bool} : Polling (.admitting answered)
  | reading {rows : Option (Option DeliveryState)} : Polling (.reading rows)
  | quarantining {saved : Option Bool} : Polling (.quarantining saved)
  | delaying : Polling .delaying
  | claiming {rows : Option (Option Claimed)} : Polling (.claiming rows)

/-- The phases in which nothing has been answered yet. -/
inductive Phase.Fresh : Phase → Prop
  | admitting : Fresh (.admitting false)
  | reading : Fresh (.reading none)
  | quarantining : Fresh (.quarantining none)
  | delaying : Fresh .delaying
  | claiming : Fresh (.claiming none)

/-- The phases a call enters only once it has been admitted. -/
def Phase.Beyond : Phase → Prop
  | .reading _ | .quarantining _ | .claiming _ | .working _ _ | .recording _ _ _ | .backingOff _ _ => True
  | _ => False

/-- A call goes on polling, or returns because it was aborted. -/
inductive Goes (c : Copy) (h : Handle) : Handle → List (Event Copy) → Prop
  | leave (ha : h.aborted = true) : Goes c h { h with phase := .returned } [.returned c]
  | on {p : Phase} (hp : p.Fresh) (ha : p.Beyond → h.admitted = true ∨ h.phase.Beyond) :
      Goes c h { h with phase := p } []

/-- A call goes on to record an outcome, or returns because it was aborted. -/
inductive Records (c : Copy) (h : Handle) (claimed : Claimed) (failure : Option Failure) :
    Handle → List (Event Copy) → Prop
  | leave (ha : h.aborted = true) : Records c h claimed failure { h with phase := .returned } [.returned c]
  | on : Records c h claimed failure { h with phase := .recording claimed failure false } []

/-- The three sites of `channel.ack`. -/
inductive Acks : Phase → Bool → Prop
  | settled {state : DeliveryState}
      (hs : state.completedAt.isSome = true ∨ state.quarantinedAt.isSome = true) :
      Acks (.reading (some (some state))) state.quarantinedAt.isSome
  | saved : Acks (.quarantining (some true)) true
  | recorded {claimed : Claimed} : Acks (.recording claimed none true) false

/-- The turns of a call, by what they do to it. -/
inductive Turned (operation : Operation) (c : Copy) (h : Handle) : Handle → List (Event Copy) → Prop
  | signal : Turned operation c h { h with aborted := true } [.signalled c]
  | hand {h' : Handle} {events : List (Event Copy)} (hp : h.phase = .idle) (hg : Goes c h h' events) :
      Turned operation c h h' (.handed c :: events)
  | go {h' : Handle} {events : List (Event Copy)}
      (hp : h.phase.Polling ∨ ∃ claimed failure, h.phase = .recording claimed failure true)
      {admitted : Bool} (hadm : admitted = h.admitted ∨ h.phase = .admitting true ∧ admitted = true)
      (hg : Goes c { h with admitted } h' events) : Turned operation c h h' events
  | ack {quarantined : Bool} (ha : h.aborted = false) (hw : Acks h.phase quarantined) :
      Turned operation c h { h with phase := .returned } [.acked c quarantined, .returned c]
  | start {claimed : Claimed} (hp : h.phase = .claiming (some (some claimed))) :
      Turned operation c h { h with phase := .working claimed false } [.started c claimed.leaseToken]
  | commit {claimed : Claimed} (hp : h.phase = .working claimed false) :
      Turned operation c h { h with phase := .working claimed true } [.committed c]
  | commitLate (hl : 0 < h.late) : Turned operation c h { h with late := h.late - 1 } [.committed c]
  | succeed {h' : Handle} {events : List (Event Copy)} {claimed : Claimed} {committed : Bool}
      (hp : h.phase = .working claimed committed)
      (hc : operation = .UserDateOfBirthSet → committed = true)
      (hr : Records c h claimed none h' events) :
      Turned operation c h h' (.succeeded c :: events)
  | fail {h' : Handle} {events : List (Event Copy)} {claimed : Claimed} {committed : Bool}
      {failure : Failure} {late : ℕ}
      (hp : h.phase = .working claimed committed)
      (hr : Records c { h with late } claimed (some failure) h' events) :
      Turned operation c h h' events
  | retry {h' : Handle} {events : List (Event Copy)} {claimed : Claimed} {failure : Option Failure}
      (hp : h.phase = .backingOff claimed failure)
      (hr : Records c h claimed failure h' events) : Turned operation c h h' events
  | backOff {claimed : Claimed} {failure : Option Failure} {answered : Bool}
      (hp : h.phase = .recording claimed failure answered) :
      Turned operation c h { h with phase := .backingOff claimed failure } []
  | crash {late : ℕ} (hi : h.phase ≠ .idle) (hr : h.phase ≠ .returned) :
      Turned operation c h { h with phase := .crashed, late } []

variable {operation : Operation} {c : Copy} {h h' : Handle} {events : List (Event Copy)}

/-- Going on says nothing, except that an aborted call returns. -/
theorem Goes.quiet (hg : Goes c h h' events) {e : Event Copy} (he : e ≠ .returned c) :
    e ∉ events := by
  cases hg <;> simp [he]

theorem Records.quiet {claimed : Claimed} {failure : Option Failure}
    (hr : Records c h claimed failure h' events) {e : Event Copy} (he : e ≠ .returned c) :
    e ∉ events := by
  cases hr <;> simp [he]

theorem goes_loop : Goes c h (h.loop c).1 (h.loop c).2 := by
  unfold Handle.loop
  by_cases ha : h.aborted = true
  · rw [if_pos ha]
    exact .leave ha
  · rw [if_neg ha]
    by_cases hadm : h.admitted = true
    · rw [if_pos hadm]
      exact .on .reading fun _ => .inl hadm
    · rw [if_neg hadm]
      exact .on .admitting False.elim

theorem goes_caught : Goes c h (h.caught c).1 (h.caught c).2 := by
  unfold Handle.caught
  by_cases ha : h.aborted = true
  · rw [if_pos ha]
    exact .leave ha
  · rw [if_neg ha]
    exact .on .delaying False.elim

theorem records_record (claimed : Claimed) (failure : Option Failure) :
    Records c h claimed failure (h.record c claimed failure).1 (h.record c claimed failure).2 := by
  unfold Handle.record
  by_cases ha : h.aborted = true
  · rw [if_pos ha]
    exact .leave ha
  · rw [if_neg ha]
    exact .on

/-- Going on from a polling phase or after an outcome has been recorded. -/
theorem Turned.goOn (hp : h.phase.Polling ∨ ∃ claimed failure, h.phase = .recording claimed failure true)
    (hg : Goes c h h' events) : Turned operation c h h' events :=
  .go hp (.inl rfl) hg

theorem turned_ack {quarantined : Bool}
    (hp : h.phase.Polling ∨ ∃ claimed failure, h.phase = .recording claimed failure true)
    (hw : Acks h.phase quarantined) :
    Turned operation c h (h.ack c quarantined).1 (h.ack c quarantined).2 := by
  unfold Handle.ack
  by_cases ha : h.aborted = true
  · rw [if_pos ha]
    exact .goOn hp (.leave ha)
  · rw [if_neg ha]
    exact .ack (by simpa using ha) hw

theorem turned_inspect {state : DeliveryState} (hp : h.phase = .reading (some (some state))) :
    Turned operation c h (h.inspect c state).1 (h.inspect c state).2 := by
  have hpoll : h.phase.Polling := hp ▸ .reading
  have hbeyond : h.phase.Beyond := hp ▸ trivial
  unfold Handle.inspect
  split
  · next hs =>
    refine turned_ack (.inl hpoll) ?_
    rw [hp]
    exact .settled (by simpa using hs)
  split
  · exact .goOn (.inl hpoll) (.on .quarantining fun _ => .inr hbeyond)
  split
  · exact .goOn (.inl hpoll) (.on .delaying False.elim)
  · exact .goOn (.inl hpoll) (.on .claiming fun _ => .inr hbeyond)

theorem turned_resume {r : Handle × List (Event Copy)} (hr : h.resume c = some r) :
    Turned operation c h r.1 r.2 := by
  unfold Handle.resume at hr
  split at hr <;> cases hr
  · next hp => exact .go (.inl (hp ▸ .admitting)) (.inr ⟨hp, rfl⟩) (.on .reading fun _ => .inl rfl)
  · next hp => exact .goOn (.inl (hp ▸ .reading)) goes_caught
  · next hp => exact turned_inspect hp
  · next saved hp =>
    cases saved
    · exact .goOn (.inl (hp ▸ .quarantining)) goes_loop
    · exact turned_ack (.inl (hp ▸ .quarantining)) (hp ▸ .saved)
  · next hp => exact .goOn (.inl (hp ▸ .delaying)) goes_loop
  · next hp => exact .goOn (.inl (hp ▸ .claiming)) goes_loop
  · next hp => exact .start hp
  · next hp => exact .goOn (.inr ⟨_, _, hp⟩) goes_loop
  · next hp => exact turned_ack (.inr ⟨_, _, hp⟩) (hp ▸ .recorded)
  · next hp => exact .retry hp (records_record _ _)

theorem turned_lose {r : Handle × List (Event Copy)} (hr : h.lose c = some r) :
    Turned operation c h r.1 r.2 := by
  unfold Handle.lose at hr
  split at hr <;> cases hr
  · next hp => exact .goOn (.inl (hp ▸ .admitting)) goes_caught
  · next hp => exact .goOn (.inl (hp ▸ .reading)) goes_caught
  · next hp => exact .goOn (.inl (hp ▸ .quarantining)) goes_caught
  · next hp => exact .goOn (.inl (hp ▸ .claiming)) goes_caught
  · next hp => exact .backOff hp

theorem turned_crash {r : Handle × List (Event Copy)} (hr : h.crash = some r) :
    Turned operation c h r.1 r.2 := by
  unfold Handle.crash at hr
  split at hr <;> cases hr
  · next hp => exact .crash (by simp [hp]) (by simp [hp])
  · next hi hr _ _ => exact .crash hi hr

theorem turned_finish {thrown : Option Thrown} {r : Handle × List (Event Copy)}
    (hr : h.finish c operation thrown = some r) : Turned operation c h r.1 r.2 := by
  unfold Handle.finish at hr
  split at hr
  · next claimed committed hp =>
    split at hr
    · cases hr
    · next hc =>
      cases hr
      exact .succeed hp (fun ho => by simpa [ho] using hc) (records_record _ _)
  · next hp =>
    cases hr
    exact .fail hp (records_record _ _)
  · cases hr

/-- Every turn is one of these. -/
theorem turn_cases {t : Turn} (ht : h.turn operation c t = some (h', events)) :
    Turned operation c h h' events := by
  cases t with
  | hand =>
    obtain ⟨r, hr, heq⟩ : ∃ r, h.hand c = some r ∧ r = (h', events) := ⟨_, ht, rfl⟩
    unfold Handle.hand at hr
    split at hr <;> cases hr
    next hp =>
      cases heq
      exact .hand hp goes_loop
  | signal => cases ht; exact .signal
  | resume => exact turned_resume ht
  | lose => exact turned_lose ht
  | crash => exact turned_crash ht
  | commit =>
    obtain ⟨r, hr, heq⟩ : ∃ r, h.commit c = some r ∧ r = (h', events) := ⟨_, ht, rfl⟩
    unfold Handle.commit at hr
    split at hr <;> cases hr
    next hp =>
      cases heq
      exact .commit hp
  | commitLate =>
    obtain ⟨r, hr, heq⟩ : ∃ r, h.commitLate c = some r ∧ r = (h', events) := ⟨_, ht, rfl⟩
    unfold Handle.commitLate at hr
    split at hr <;> cases hr
    next hl =>
      cases heq
      exact .commitLate hl
  | finish thrown => exact turned_finish ht

end turns

end CinemaLoyalty
