import CinemaLoyalty.Delivery.Budget

/-! @svc DeliveryReplay | layer:system | source:src/loyalty/consumers/quarantine-replay.service.ts, docs/reliability.md (Controlled replay)

    The operators' replays of quarantined deliveries, between them whatever the consumers do. A call
    of `replay` reads the row, resets it with one UPDATE and publishes the stored body, which comes
    back as one more copy. The row keeps its last replay id only: an id that another id has superseded
    resets the delivery again once it is quarantined again (`superseded_resets_again`), and this is the
    only way an id resets a delivery twice (`replays_reset_once`). -/

namespace CinemaLoyalty
open Transition

/-- What `replay` throws; `lost` is a rejected await, or properties that do not parse. -/
inductive ReplayError
  | INVALID_REPLAY_ID | notFound | REPLAY_SOURCE_MISMATCH | REPLAY_BODY_MISMATCH
  | STOP_ALL_SOURCE_CONSUMERS_BEFORE_REPLAY | DELIVERY_IS_NOT_QUARANTINED
  | SOURCE_CONSUMER_STARTED_DURING_REPLAY | lost
  deriving DecidableEq

/-- The await a call of `replay` is suspended at, with the body and the replay id it has read. -/
inductive ReplayPhase
  | idle
  | found (body : Buffer) (usedId : Option Uuid)
  | stopped (body : Buffer) (usedId : Option Uuid)
  | replayed (body : Buffer)
  | publishing (body : Buffer)
  | published
  | threw (e : ReplayError)

/-- The calls of a run: the texts each operator passes. -/
structure Replays (Operator : Type) where
  deliveryId : Operator → String
  replayId : Operator → String

/-- The consumers and their journal, the operators' calls, and who has reset and published what. -/
structure ReplayState (Copy Operator : Type) where
  delivery : State Copy
  calls : Operator → ReplayPhase
  resets : List (String × Uuid)
  published : List (String × Buffer)

/-- What happens: a consumer's action, or the end of an await of an operator's call. An UPDATE runs
    with or without its answer arriving, a message is enqueued with or without being confirmed. -/
inductive ReplayAction (Copy Operator : Type)
  | consume (a : Action Copy)
  | read (o : Operator)
  | checkBefore (o : Operator) (consumerCount : ℕ)
  | update (o : Operator) (answered : Bool)
  | checkAfter (o : Operator) (consumerCount : ℕ)
  | publish (o : Operator) (enqueued confirmed : Bool)
  | lose (o : Operator)

/-- `/^[a-f0-9]{64}$/`. -/
def isDigestText (s : String) : Bool := s.toList.length = 64 && s.toList.all isHexDigit

section
variable {Copy Operator : Type}

/-- The replay id the row of a delivery keeps. -/
def State.replayIdOf (s : State Copy) (id : String) : Option Uuid := (s.rows id).bind (·.replayId)

/-- A delivery that a reset under a new id would reset. -/
def State.quarantined (s : State Copy) (id : String) : Bool :=
  (s.rows id).any fun row => row.quarantinedAt.isSome && decide (row.LeaseOver s.now)

variable (D : Deployment Copy) (R : Replays Operator)

/-- A call up to its first `checkQueue`. -/
def Replays.start (o : Operator) (s : State Copy) : ReplayPhase :=
  if !isDigestText (R.deliveryId o) || !zodUuid (R.replayId o) then .threw .INVALID_REPLAY_ID
  else
    match s.rows (R.deliveryId o) with
    | none => .threw .notFound
    | some record =>
      match record.originalBody with
      | none => .threw .REPLAY_SOURCE_MISMATCH
      | some body =>
        if inboundDeliveryId D.sha256 D.queue body ≠ R.deliveryId o then .threw .REPLAY_BODY_MISMATCH
        else .found body record.replayId

variable [DecidableEq Operator]

/-- The state after a call changed. -/
def ReplayState.put (s : ReplayState Copy Operator) (o : Operator) (p : ReplayPhase) :
    ReplayState Copy Operator :=
  { s with calls := Function.update s.calls o p }

/-- The UPDATE of a call, with the reset it makes. -/
def ReplayState.reset (s : ReplayState Copy Operator) (id : String) (replayId : Uuid) :
    ReplayState Copy Operator :=
  { s with
    delivery := s.delivery.execute id (.replay replayId) s.delivery.now
    resets := s.resets ++
      if (s.delivery.written id (.replay replayId) s.delivery.now).isSome then [(id, replayId)] else [] }

variable [DecidableEq Copy]

/-- The state after an action; `none` where it cannot happen. -/
def Replays.step : ReplayAction Copy Operator → ReplayState Copy Operator →
    Option (ReplayState Copy Operator)
  | .consume (.replay _ _), _ => none
  | .consume a, s => (CinemaLoyalty.step D a s.delivery).map fun delivery => { s with delivery }
  | .read o, s =>
    match s.calls o with
    | .idle => some (s.put o (R.start D o s.delivery))
    | _ => none
  | .checkBefore o consumerCount, s =>
    match s.calls o with
    | .found body usedId =>
      some (s.put o (if consumerCount ≠ 0 then .threw .STOP_ALL_SOURCE_CONSUMERS_BEFORE_REPLAY
        else .stopped body usedId))
    | _ => none
  | .update o answered, s =>
    match s.calls o, Uuid.ofText (R.replayId o) with
    | .stopped body usedId, some replayId =>
      let changed := (s.delivery.written (R.deliveryId o) (.replay replayId) s.delivery.now).isSome
      some ((s.reset (R.deliveryId o) replayId).put o
        (if !answered then .threw .lost
        else if !changed && decide (usedId.map (·.text) ≠ some (R.replayId o)) then
          .threw .DELIVERY_IS_NOT_QUARANTINED
        else .replayed body))
    | _, _ => none
  | .checkAfter o consumerCount, s =>
    match s.calls o with
    | .replayed body =>
      some (s.put o (if consumerCount ≠ 0 then .threw .SOURCE_CONSUMER_STARTED_DURING_REPLAY
        else .publishing body))
    | _ => none
  | .publish o enqueued confirmed, s =>
    match s.calls o with
    | .publishing body =>
      some { s.put o (if confirmed then .published else .threw .lost) with
        published := s.published ++ if enqueued then [(R.deliveryId o, body)] else [] }
    | _ => none
  | .lose o, s =>
    match s.calls o with
    | .idle | .published | .threw _ => none
    | _ => some (s.put o (.threw .lost))

/-- An empty journal and no call begun. -/
def Replays.machine : System (ReplayState Copy Operator) (ReplayAction Copy Operator) where
  first := { delivery := D.machine.first, calls := fun _ => .idle, resets := [], published := [] }
  step := R.step D

/-- The id of the last reset of a delivery. -/
def lastReset (id : String) (resets : List (String × Uuid)) : Option Uuid :=
  (resets.filter (·.1 = id)).getLast?.map (·.2)

/-- The id has reset the delivery, and a reset under another id came last. -/
def ReplayState.Superseded (s : ReplayState Copy Operator) (id : String) (replayId : Uuid) : Prop :=
  (id, replayId) ∈ s.resets ∧ lastReset id s.resets ≠ some replayId

instance (s : ReplayState Copy Operator) (id : String) (replayId : Uuid) :
    Decidable (s.Superseded id replayId) :=
  inferInstanceAs (Decidable (_ ∧ _))

/-- No superseded id is used on a quarantined delivery. -/
def Replays.InTurn : ReplayAction Copy Operator → ReplayState Copy Operator → Prop
  | .update o _, s => ∀ replayId ∈ Uuid.ofText (R.replayId o),
    s.delivery.quarantined (R.deliveryId o) = true → ¬s.Superseded (R.deliveryId o) replayId
  | _, _ => True

instance : ∀ (a : ReplayAction Copy Operator) (s : ReplayState Copy Operator), Decidable (R.InTurn a s)
  | .update o _, s => inferInstanceAs (Decidable (∀ replayId ∈ Uuid.ofText (R.replayId o),
      s.delivery.quarantined (R.deliveryId o) = true → ¬s.Superseded (R.deliveryId o) replayId))
  | .consume _, _ | .read _, _ | .checkBefore _ _, _ | .checkAfter _ _, _ | .publish _ _ _, _
  | .lose _, _ => inferInstanceAs (Decidable True)

end

/-! ### The replay id of a row -/

section rows
variable {Copy : Type} {D : Deployment Copy} {s s' : State Copy} {id : String} {q : Statement} {received : Timestamp}

/-- Only a reset writes the replay id. -/
theorem write_replayId {token : ℕ} {now : Timestamp} {row : Option InboundDelivery}
    {row' : InboundDelivery} (hq : ∀ replayId, q ≠ .replay replayId)
    (h : q.write token received now row = some row') : row'.replayId = row.bind (·.replayId) := by
  cases q with
  | replay replayId => exact absurd rfl (hq replayId)
  | insert operation maxAttempts =>
    cases row with
    | none => cases h; rfl
    | some row =>
      simp only [Statement.write, InboundDelivery.restart, Option.ite_none_right_eq_some,
        Option.some.injEq] at h
      obtain ⟨-, rfl⟩ := h
      rfl
  | _ =>
    simp only [Statement.write, Option.bind_eq_some_iff] at h
    obtain ⟨row, rfl, h⟩ := h
    simp only [InboundDelivery.claim, InboundDelivery.recordFailure, InboundDelivery.recordCompletion,
      InboundDelivery.quarantine, Option.ite_none_right_eq_some, Option.some.injEq] at h
    obtain ⟨-, rfl⟩ := h
    rfl

theorem execute_replayIdOf (hq : ∀ replayId, q ≠ .replay replayId) (id' : String) :
    (s.execute id q received).replayIdOf id' = s.replayIdOf id' := by
  rcases execute_cases s id q received with ⟨-, he⟩ | ⟨row, hrow, he⟩
  · rw [he]
  · rw [he]
    unfold State.replayIdOf
    by_cases hid : id' = id
    · subst hid
      simp only [Function.update_self, Option.bind_some]
      exact write_replayId hq hrow
    · simp only [Function.update_of_ne hid]

/-- A reset happens to a quarantined delivery whose row does not keep the id. -/
theorem reset_written (id : String) (replayId : Uuid) :
    (s.written id (.replay replayId) s.now).isSome = true ↔
      s.quarantined id = true ∧ s.replayIdOf id ≠ some replayId := by
  unfold State.written State.quarantined State.replayIdOf Statement.write InboundDelivery.replay
  cases s.rows id with
  | none => simp
  | some row =>
    simp only [Option.bind_some, Option.any_some, Bool.and_eq_true, decide_eq_true_eq]
    split
    · rename_i h
      simpa using ⟨⟨h.1, h.2.2⟩, h.2.1⟩
    · rename_i h
      simp only [Option.isSome_none, Bool.false_eq_true, false_iff]
      exact fun hr => h ⟨hr.1.1, hr.2, hr.1.2⟩

theorem reset_replayIdOf {replayId : Uuid}
    (h : (s.written id (.replay replayId) s.now).isSome = true) (id' : String) :
    (s.execute id (.replay replayId) s.now).replayIdOf id' =
      if id' = id then some replayId else s.replayIdOf id' := by
  rcases execute_cases s id (.replay replayId) s.now with ⟨hnone, -⟩ | ⟨row, hrow, he⟩
  · rw [hnone] at h; cases h
  · rw [he]
    unfold State.replayIdOf
    split
    · rename_i hid
      subst hid
      simp only [Function.update_self, Option.bind_some]
      obtain ⟨old, -, hreset⟩ := Option.bind_eq_some_iff.1 hrow
      simp only [InboundDelivery.replay, Option.ite_none_right_eq_some, Option.some.injEq] at hreset
      obtain ⟨-, rfl⟩ := hreset
      rfl
    · rename_i hid
      simp only [Function.update_of_ne hid]

/-- An UPDATE resets the delivery and stands in the history, or does neither. -/
theorem reset_cases {Operator : Type} (s : ReplayState Copy Operator) (id : String) (replayId : Uuid) :
    (s.delivery.quarantined id = true ∧ s.delivery.replayIdOf id ≠ some replayId) ∧
        (s.reset id replayId).resets = s.resets ++ [(id, replayId)] ∨
      ¬(s.delivery.quarantined id = true ∧ s.delivery.replayIdOf id ≠ some replayId) ∧
        s.reset id replayId = s := by
  rw [← reset_written]
  rcases execute_cases s.delivery id (.replay replayId) s.delivery.now with ⟨hw, he⟩ | ⟨row, hw, -⟩
  · exact .inr ⟨by rw [hw]; simp, by simp [ReplayState.reset, hw, he]⟩
  · exact .inl ⟨by rw [hw]; rfl, by simp [ReplayState.reset, hw]⟩

/-- No consumer issues a reset. -/
def State.Consuming (s : State Copy) : Prop := ∀ o ∈ s.orphans, ∀ replayId, o.2 ≠ .replay replayId

theorem pending_not_replay {c : Copy} {p : Phase} (h : D.pending c p = some q) (replayId : Uuid) :
    q ≠ .replay replayId := by
  cases pending_cases h <;> exact fun h => (nomatch h)

/-- A consumer leaves the replay ids alone. -/
theorem consume_step [DecidableEq Copy] {a : Action Copy} (ha : ∀ id replayId, a ≠ .replay id replayId)
    (h : step D a s = some s') (hs : s.Consuming) :
    s'.Consuming ∧ ∀ id, s'.replayIdOf id = s.replayIdOf id := by
  cases a with
  | replay id replayId => exact absurd rfl (ha id replayId)
  | tick now =>
    simp only [step, Option.ite_none_right_eq_some, Option.some.injEq] at h
    obtain ⟨-, rfl⟩ := h
    exact ⟨hs, fun _ => rfl⟩
  | turn c t =>
    simp only [step, Option.map_eq_some_iff] at h
    obtain ⟨r, -, rfl⟩ := h
    refine ⟨fun o ho => ?_, fun _ => rfl⟩
    rcases List.mem_append.1 ho with ho | ho
    · exact hs o ho
    · split at ho
      · obtain ⟨q, hq, rfl⟩ := Option.map_eq_some_iff.1 (Option.mem_toList.1 ho)
        exact pending_not_replay hq
      · cases ho
  | read c received =>
    simp only [step] at h
    split at h
    · simp only [Option.ite_none_right_eq_some, Option.some.injEq] at h
      obtain ⟨-, rfl⟩ := h
      exact ⟨hs, fun _ => rfl⟩
    · cases h
  | run c received =>
    simp only [step] at h
    split at h
    · next q hq =>
      simp only [Option.ite_none_right_eq_some, Option.some.injEq] at h
      obtain ⟨-, rfl⟩ := h
      exact ⟨by simpa [State.Consuming] using hs, execute_replayIdOf (pending_not_replay hq)⟩
    · cases h
  | orphan i received =>
    simp only [step] at h
    split at h
    · next id q ho =>
      simp only [Option.ite_none_right_eq_some, Option.some.injEq] at h
      obtain ⟨-, rfl⟩ := h
      exact ⟨fun o ho => hs o (List.mem_of_mem_eraseIdx ho),
        execute_replayIdOf (hs _ (List.mem_of_getElem? ho))⟩
    · cases h

end rows

/-! ### Runs -/

section runs
variable {Copy Operator : Type} [DecidableEq Copy] [DecidableEq Operator] {D : Deployment Copy}
  {R : Replays Operator} {s s' : ReplayState Copy Operator} {a : ReplayAction Copy Operator}

/-- What an action does to the journal and to the resets: an UPDATE makes its reset, a consumer makes
    none, and the rest of a call touches neither. -/
inductive Replayed (D : Deployment Copy) (R : Replays Operator) (s : ReplayState Copy Operator) :
    ReplayAction Copy Operator → ReplayState Copy Operator → Prop
  | update {o : Operator} {answered : Bool} {replayId : Uuid} {s' : ReplayState Copy Operator}
      (hid : Uuid.ofText (R.replayId o) = some replayId)
      (hd : s'.delivery = (s.reset (R.deliveryId o) replayId).delivery)
      (hr : s'.resets = (s.reset (R.deliveryId o) replayId).resets) :
      Replayed D R s (.update o answered) s'
  | consume {b : Action Copy} {s' : ReplayState Copy Operator}
      (hb : ∀ id replayId, b ≠ .replay id replayId) (hd : step D b s.delivery = some s'.delivery)
      (hr : s'.resets = s.resets) : Replayed D R s (.consume b) s'
  | call {a : ReplayAction Copy Operator} {s' : ReplayState Copy Operator}
      (ha : ∀ o answered, a ≠ .update o answered) (hd : s'.delivery = s.delivery)
      (hr : s'.resets = s.resets) : Replayed D R s a s'

theorem replayed_step (h : R.step D a s = some s') : Replayed D R s a s' := by
  cases a with
  | consume b =>
    cases b with
    | replay id replayId => cases h
    | _ =>
      obtain ⟨delivery, hd, rfl⟩ := Option.map_eq_some_iff.1 h
      exact .consume (by simp) hd rfl
  | update o answered =>
    simp only [Replays.step] at h
    split at h
    · next hid =>
      cases h
      exact .update hid rfl rfl
    · cases h
  | _ =>
    simp only [Replays.step] at h
    split at h <;> cases h
    all_goals exact .call (by simp) rfl rfl

@[simp] theorem lastReset_concat (id id' : String) (replayId : Uuid) (resets : List (String × Uuid)) :
    lastReset id (resets ++ [(id', replayId)]) =
      if id' = id then some replayId else lastReset id resets := by
  unfold lastReset
  rw [List.filter_append]
  split
  · rename_i hid
    simp [hid]
  · rename_i hid
    simp [hid]

/-- Every row keeps the id of the last reset of its delivery. -/
structure ReplayState.Known (s : ReplayState Copy Operator) : Prop where
  consuming : s.delivery.Consuming
  kept : ∀ id, s.delivery.replayIdOf id = lastReset id s.resets

theorem known_step (hs : s.Known) (h : R.step D a s = some s') : s'.Known := by
  cases replayed_step h with
  | call _ hd hr => exact ⟨hd ▸ hs.consuming, by rw [hd, hr]; exact hs.kept⟩
  | consume hb hd hr =>
    obtain ⟨hconsuming, hids⟩ := consume_step hb hd hs.consuming
    exact ⟨hconsuming, fun id => by rw [hr, hids, hs.kept]⟩
  | @update o _ replayId _ hid hd hr =>
    rcases reset_cases s (R.deliveryId o) replayId with ⟨hw, hresets⟩ | ⟨-, hsame⟩
    · refine ⟨?_, fun id => ?_⟩
      · rw [hd]
        simpa [State.Consuming, ReplayState.reset] using hs.consuming
      · rw [hd, hr, hresets, lastReset_concat]
        refine (reset_replayIdOf ((reset_written _ _).2 hw) id).trans ?_
        by_cases hdelivery : id = R.deliveryId o
        · rw [if_pos hdelivery, if_pos hdelivery.symm]
        · rw [if_neg hdelivery, if_neg (Ne.symm hdelivery), hs.kept]
    · rw [hsame] at hd hr
      exact ⟨hd ▸ hs.consuming, by rw [hd, hr]; exact hs.kept⟩

theorem known_reached (hr : (R.machine D).Reached s) : s.Known :=
  hr.invariant ⟨fun _ ho => (List.not_mem_nil ho).elim, fun _ => rfl⟩ fun hs h => known_step h hs

/-- An UPDATE in turn never repeats a reset. -/
theorem nodup_step (hs : s.Known) (hnodup : s.resets.Nodup) (hok : R.InTurn a s)
    (h : R.step D a s = some s') : s'.resets.Nodup := by
  cases replayed_step h with
  | call _ _ hr => rw [hr]; exact hnodup
  | consume _ _ hr => rw [hr]; exact hnodup
  | @update o _ replayId _ hid _ hr =>
    rw [hr]
    rcases reset_cases s (R.deliveryId o) replayId with ⟨⟨hquarantined, hother⟩, hresets⟩ | ⟨-, hsame⟩
    · rw [hresets]
      refine hnodup.append (List.nodup_singleton _) (List.disjoint_singleton.2 fun hused => ?_)
      exact hok replayId hid hquarantined ⟨hused, hs.kept _ ▸ hother⟩
    · rw [hsame]
      exact hnodup

/-- An UPDATE out of turn resets the delivery once more under an id that has reset it. -/
theorem superseded_resets_again (hs : s.Known) (hout : ¬R.InTurn a s) (h : R.step D a s = some s') :
    ∃ id replayId, 1 < s'.resets.count (id, replayId) := by
  cases a with
  | update o answered =>
    simp only [Replays.InTurn, not_forall, not_not] at hout
    obtain ⟨replayId, hid, hquarantined, hused, hother⟩ := hout
    cases replayed_step h with
    | call ha _ _ => exact absurd rfl (ha o answered)
    | update hid' _ hr =>
      obtain rfl := Option.some.inj (hid.symm.trans hid')
      rcases reset_cases s (R.deliveryId o) replayId with ⟨-, hresets⟩ | ⟨hnot, -⟩
      · refine ⟨R.deliveryId o, replayId, ?_⟩
        rw [hr, hresets, List.count_append, List.count_singleton_self]
        have hbefore := List.count_pos_iff.2 hused
        omega
      · exact (hnot ⟨hquarantined, hs.kept _ ▸ hother⟩).elim
  | _ => exact absurd trivial hout

end runs

/-- In every run that never uses a superseded id on a quarantined delivery, each id resets each
    delivery once at most; a step that does use one resets the delivery a second time. -/
theorem replays_reset_once {Copy Operator : Type} [DecidableEq Copy] [DecidableEq Operator]
    (D : Deployment Copy) (R : Replays Operator) :
    (∀ s, (R.machine D).ReachedBy R.InTurn s →
      ∀ id replayId, s.resets.count (id, replayId) ≤ 1) ∧
    ∀ s a s', (R.machine D).Reached s → (R.machine D).step a s = some s' → ¬R.InTurn a s →
      ∃ id replayId, 1 < s'.resets.count (id, replayId) := by
  refine ⟨fun s hr id replayId => ?_, fun s a s' hr h hout =>
    superseded_resets_again (known_reached hr) hout h⟩
  have hinv : s.Known ∧ s.resets.Nodup :=
    hr.invariant (I := fun s => s.Known ∧ s.resets.Nodup) ⟨known_reached .refl, List.nodup_nil⟩
      fun hok h hs => ⟨known_step hs.1 h, nodup_step hs.1 hs.2 hok h⟩
  exact List.nodup_iff_count_le_one.1 hinv.2 (id, replayId)

/-- A message with an impossible date that arrives three times. -/
def threeCopies : Deployment (Fin 3) where
  sha256 := fun _ => "c09b4bc25fc83c7654a718a31ebf8d74cd37798eed65aa00468d3693bccce27e"
  queue := ascii "loyalty_ticket_purchased"
  content := fun _ => setterBody "1990-13-40"
  pattern := fun _ => .UserDateOfBirthSet
  userId := threeSetters.userId
  options := threeSetters.options

/-- Three calls for its delivery; the last uses the id of the first. -/
def firstIdAgain : Replays (Fin 3) where
  deliveryId := fun _ => "c09b4bc25fc83c7654a718a31ebf8d74cd37798eed65aa00468d3693bccce27e"
  replayId := fun o => if o = 1 then "5d3a5ee0-1f0c-4b6e-8a55-0d7f6b1c2e01"
    else "0b6e2f9c-7c1d-4a5f-9b3e-2d1c4f6a8b90"

/-- A copy is handed over, fails for good and is quarantined. -/
def quarantines (c : Fin 3) : List (ReplayAction (Fin 3) (Fin 3)) :=
  [.turn c .hand, .run c 0, .turn c .resume, .read c 0, .turn c .resume, .run c 0, .turn c .resume,
    .turn c (.finish (some (.permanentMessage .INVALID_DATE_OF_BIRTH))), .run c 0, .turn c .resume,
    .read c 0, .turn c .resume, .run c 0, .turn c .resume].map .consume

/-- An operator replays. -/
def replays (o : Fin 3) : List (ReplayAction (Fin 3) (Fin 3)) :=
  [.read o, .checkBefore o 0, .update o true, .checkAfter o 0, .publish o true true]

/-- Quarantined and replayed under one id, quarantined and replayed under another, quarantined and
    replayed under the first again: it resets again. -/
theorem first_id_resets_again : ∃ s, (firstIdAgain.machine threeCopies).Reached s ∧
    s.resets.count (firstIdAgain.deliveryId 0, ⟨firstIdAgain.replayId 0, by decide⟩) = 2 := by
  obtain ⟨s, hs, hp⟩ := (firstIdAgain.machine threeCopies).reached_of_exec
    (quarantines 0 ++ replays 0 ++ quarantines 1 ++ replays 1 ++ quarantines 2 ++ replays 2)
    (fun s => s.resets.count (firstIdAgain.deliveryId 0, ⟨firstIdAgain.replayId 0, by decide⟩) = 2)
    (by decide +kernel)
  exact ⟨s, hs, of_decide_eq_true hp⟩

/-- Two ids, one after the other, reset the delivery once each. -/
theorem replays_reset_once_each : ∃ s, (firstIdAgain.machine threeCopies).ReachedBy firstIdAgain.InTurn s ∧
    s.resets.length = 2 ∧ ∀ id replayId, s.resets.count (id, replayId) ≤ 1 := by
  obtain ⟨s, hs, hp⟩ := (firstIdAgain.machine threeCopies).reachedBy_of_exec firstIdAgain.InTurn
    (quarantines 0 ++ replays 0 ++ quarantines 1 ++ replays 1) (fun s => s.resets.length = 2)
    (by decide +kernel)
  exact ⟨s, hs, of_decide_eq_true hp, (replays_reset_once threeCopies firstIdAgain).1 s hs⟩

end CinemaLoyalty
